import TypeSketch.Json.Dialect

/-!
# Strings, numbers and words of JSON

Each reader takes a text and gives what stands at its front together with the rest.

* `string`: a string, from behind its opening quote.
* `number`: the longest number at the front.
* `scalar`: a string, a number, or a word for a value.
* `scalar_length`: reading a scalar takes at least one code point.
-/

namespace TypeSketch.Json

/-- What a one-letter escape denotes. -/
def simpleEscape? (c : CodePoint) : Option CodePoint :=
  if c = '"' || c = '\\' || c = '/' then some c
  else if c = 'b' then some (.ofNat 8)
  else if c = 'f' then some (.ofNat 12)
  else if c = 'n' then some '\n'
  else if c = 'r' then some '\r'
  else if c = 't' then some '\t'
  else none

/-- The number that four hexadecimal digits at the front denote, and what follows them. -/
def hexFour? : Text → Option (Nat × Text)
  | a :: b :: c :: d :: rest =>
    match a.hexVal?, b.hexVal?, c.hexVal?, d.hexVal? with
    | some a, some b, some c, some d => some (((a * 16 + b) * 16 + c) * 16 + d, rest)
    | _, _, _, _ => none
  | _ => none

theorem hexFour?_length {t rest : Text} {n : Nat} (h : hexFour? t = some (n, rest)) :
    t.length = rest.length + 4 := by
  unfold hexFour? at h
  split at h
  · split at h
    · simp only [Option.some.injEq, Prod.mk.injEq] at h
      simp [← h.2]
    · cases h
  · cases h

/-- The first half of a surrogate pair. -/
def isHighSurrogate (n : Nat) : Bool := 0xD800 ≤ n && n < 0xDC00

/-- The second half of a surrogate pair. -/
def isLowSurrogate (n : Nat) : Bool := 0xDC00 ≤ n && n < 0xE000

/-- The code point that a surrogate pair denotes. -/
def ofPair (high low : Nat) : CodePoint :=
  .ofNat (0x10000 + (high - 0xD800) * 0x400 + (low - 0xDC00))

/-- What a `\u` escape denotes, given the text behind the `u`, and what follows it. Two escapes in
a row that make a surrogate pair denote one code point; a half on its own denotes itself. A string
that ends right after its last escape is too short to close, which is reported at the escape. -/
def unicodeEscape (t : Text) : Except Mishap (CodePoint × Text) :=
  match hexFour? t with
  | some (n, rest@(slash :: u :: second)) =>
    if isHighSurrogate n && 6 < rest.length && slash = '\\' && u = 'u' then
      match hexFour? second with
      | some (m, rest') =>
        if isLowSurrogate m then .ok (ofPair n m, rest') else .ok (.ofNat n, rest)
      | none => .error (.problem .badUnicodeEscape (u :: second))
    else .ok (.ofNat n, rest)
  | some (n, [c]) => .ok (.ofNat n, [c])
  | _ => .error (.problem .badUnicodeEscape ('u' :: t))

theorem unicodeEscape_length {t rest : Text} {c : CodePoint}
    (h : unicodeEscape t = .ok (c, rest)) : rest.length < t.length := by
  unfold unicodeEscape at h
  split at h
  · next n slash u second hn =>
    have h1 := hexFour?_length hn
    simp only [List.length_cons] at h1
    split at h
    · split at h
      · next m rest' hm =>
        have h2 := hexFour?_length hm
        split at h <;> simp only [Except.ok.injEq, Prod.mk.injEq] at h <;> obtain ⟨-, rfl⟩ := h
        · omega
        · simp only [List.length_cons]; omega
      · cases h
    · simp only [Except.ok.injEq, Prod.mk.injEq] at h
      obtain ⟨-, rfl⟩ := h
      simp only [List.length_cons]; omega
  · next n c' hn =>
    have h1 := hexFour?_length hn
    simp only [Except.ok.injEq, Prod.mk.injEq] at h
    obtain ⟨-, rfl⟩ := h
    omega
  · cases h

/-- The rest of a lenient string, given the text from its opening quote on and what was read of
it, latest first. -/
def lenientString (start acc : Text) : Text → Except Mishap (Text × Text)
  | [] => .error (.problem .openString start)
  | c :: rest =>
    if c = '"' then .ok (acc.reverse, rest)
    else if c = '\\' then
      match rest with
      | [] => .error (.problem .openString start)
      | e :: after =>
        if e = 'u' then
          match _h : unicodeEscape after with
          | .ok (d, rest') => lenientString start (d :: acc) rest'
          | .error m => .error m
        else match simpleEscape? e with
          | some d => lenientString start (d :: acc) after
          | none => .error (.problem .badEscape (c :: rest))
    else if c.val < 0x20 then .error (.problem .controlCharacter (c :: rest))
    else lenientString start (c :: acc) rest
termination_by t => t.length
decreasing_by
  · have := unicodeEscape_length _h
    simp only [List.length_cons]; omega
  · simp only [List.length_cons]; omega
  · simp only [List.length_cons]; omega

theorem lenientString_length {start acc t s rest : Text}
    (h : lenientString start acc t = .ok (s, rest)) : rest.length < t.length := by
  fun_induction lenientString start acc t with
  | case1 => cases h
  | case2 => cases h; simp
  | case3 => cases h
  | case4 acc after d rest' he _ ih =>
    have := ih h
    have := unicodeEscape_length he
    simp only [List.length_cons]; omega
  | case5 => cases h
  | case6 acc e after _ d _ _ ih =>
    have := ih h
    simp only [List.length_cons]; omega
  | case7 => cases h
  | case8 => cases h
  | case9 acc c rest _ _ _ ih =>
    have := ih h
    simp only [List.length_cons]; omega

/-- How many continuation bytes a byte of a string calls for. -/
def tailsAfter? (c : CodePoint) : Option Nat :=
  if c.val < 0x80 then some 0
  else if c.val / 0x20 = 0x6 then some 1
  else if c.val / 0x10 = 0xE then some 2
  else if c.val / 0x8 = 0x1E then some 3
  else none

/-- A continuation byte. -/
def isTailByte (c : CodePoint) : Bool := c.val / 0x40 = 0x2

/-- The raw bytes of a strict string up to its closing quote, and the rest: every escape is known
and every multi-byte sequence has the shape that its first byte calls for. -/
def strictBody (start acc : Text) : Text → Except Mishap (Text × Text)
  | [] => .error (.problem .openString start)
  | c :: rest =>
    if c = '"' then .ok (acc.reverse, rest)
    else if c = '\\' then
      match rest with
      | [] => .error (.problem .openString start)
      | e :: after =>
        if e = 'u' && (hexFour? after).isNone then .error (.problem .badUnicodeEscape rest)
        else if e = 'u' || (simpleEscape? e).isSome then strictBody start (e :: c :: acc) after
        else .error (.problem .badEscape (c :: rest))
    else if c.val < 0x20 then .error (.problem .controlCharacter (c :: rest))
    else match tailsAfter? c with
      | none => .error (.problem .controlCharacter (c :: rest))
      | some k =>
        if (rest.take k).length = k && (rest.take k).all isTailByte then
          strictBody start ((rest.take k).reverse ++ c :: acc) (rest.drop k)
        else .error (.problem .controlCharacter (c :: rest))
termination_by t => t.length
decreasing_by
  · simp only [List.length_cons]; omega
  · simp only [List.length_cons, List.length_drop]; omega

theorem strictBody_length {start acc t s rest : Text}
    (h : strictBody start acc t = .ok (s, rest)) : rest.length < t.length := by
  fun_induction strictBody start acc t with
  | case1 => cases h
  | case2 => cases h; simp
  | case3 => cases h
  | case4 => cases h
  | case5 acc e after _ _ _ ih =>
    have := ih h
    simp only [List.length_cons]; omega
  | case6 => cases h
  | case7 => cases h
  | case8 => cases h
  | case9 acc c rest _ _ _ k _ _ ih =>
    have := ih h
    simp only [List.length_drop] at this
    simp only [List.length_cons]; omega
  | case10 => cases h

/-- The bytes that a strict string denotes. An escaped first half of a surrogate pair takes the
escape behind it as its second half, whatever that is; without one it denotes a question mark
and the byte behind it is lost. -/
def unescape : Text → List UInt8
  | [] => []
  | c :: rest =>
    if c = '\\' then
      match rest with
      | [] => []
      | e :: after =>
        if e = 'u' then
          match _h : hexFour? after with
          | none => []
          | some (n, rest') =>
            if isHighSurrogate n then
              match rest' with
              | slash :: u :: second =>
                if slash = '\\' && u = 'u' then
                  match _h' : hexFour? second with
                  | none => []
                  | some (m, rest'') =>
                    (ofPair n (0xDC00 + m % 0x400)).utf8 ++ unescape rest''
                else (0x3F : UInt8) :: unescape (u :: second)
              | rest' => (0x3F : UInt8) :: unescape (rest'.drop 1)
            else (CodePoint.ofNat n).utf8 ++ unescape rest'
        else ((simpleEscape? e).getD e).utf8 ++ unescape after
    else UInt8.ofNat c.val :: unescape rest
termination_by t => t.length
decreasing_by
  · have := hexFour?_length _h
    have := hexFour?_length _h'
    simp only [List.length_cons] at *; omega
  · have := hexFour?_length _h
    simp only [List.length_cons] at *; omega
  · have := hexFour?_length _h
    simp only [List.length_cons, List.length_drop] at *; omega
  · have := hexFour?_length _h
    simp only [List.length_cons] at *; omega
  · simp only [List.length_cons]; omega
  · simp only [List.length_cons]; omega

/-- A string, given the text behind its opening quote, and the rest. -/
def string (d : Dialect) (t : Text) : Except Mishap (Text × Text) :=
  match d with
  | .lenient => lenientString ('"' :: t) [] t
  | .strict =>
    match strictBody ('"' :: t) [] t with
    | .error m => .error m
    | .ok (body, rest) =>
      match Utf8.decode (unescape body) with
      | (s, none) => .ok (s, rest)
      | (_, some flaw) => .error (.badBytes flaw)

theorem string_length {d : Dialect} {t s rest : Text} (h : string d t = .ok (s, rest)) :
    rest.length < t.length := by
  cases d with
  | lenient => exact lenientString_length h
  | strict =>
    simp only [string] at h
    split at h
    · cases h
    · next body rest' hb =>
      have := strictBody_length hb
      split at h <;> cases h
      exact this

/-- The digits at the front of a text. -/
def digits (t : Text) : Text := t.takeWhile CodePoint.isDigit

/-- What follows the digits at the front of a text. -/
def afterDigits (t : Text) : Text := t.dropWhile CodePoint.isDigit

theorem length_afterDigits_le (t : Text) : (afterDigits t).length ≤ t.length :=
  (List.dropWhile_suffix _).length_le

/-- The integer part of a number: a zero alone, or digits that begin with another one. -/
def wholePart? : Text → Option (Text × Text)
  | [] => none
  | c :: rest =>
    if c = '0' then some (['0'], rest)
    else if c.isDigit then some (c :: digits rest, afterDigits rest)
    else none

theorem wholePart?_length {t w rest : Text} (h : wholePart? t = some (w, rest)) :
    rest.length < t.length := by
  unfold wholePart? at h
  split at h
  · cases h
  · next c r =>
    split at h
    · cases h; simp
    · split at h
      · cases h
        have := length_afterDigits_le r
        simp only [List.length_cons]; omega
      · cases h

/-- A part of a number that may be there: what it gives and the rest. The lenient dialect leaves a
broken part to the text behind the number, the strict one refuses it. -/
def optionalPart {α : Type} (d : Dialect) (t : Text) (begins : Bool) (part : Option (α × Text)) :
    Except Mishap (Option α × Text) :=
  match part with
  | some (a, rest) => .ok (some a, rest)
  | none =>
    match d with
    | .lenient => .ok (none, t)
    | .strict => if begins then .error (.problem .expectedValue t) else .ok (none, t)

/-- The digits behind a point. -/
def fraction? : Text → Option (Text × Text)
  | [] => none
  | c :: rest =>
    if c = '.' && !(digits rest).isEmpty then some (digits rest, afterDigits rest) else none

/-- The exponent: its mark, an optional sign and digits. -/
def exponent? : Text → Option (Int × Text)
  | [] => none
  | c :: rest =>
    let (negative, unsigned) := Text.cutSign rest
    if (c = 'e' || c = 'E') && !(digits unsigned).isEmpty then
      let n : Int := Text.natOfDigits (digits unsigned)
      some (if negative then -n else n, afterDigits unsigned)
    else none

/-- Whether a text begins with a code point of a class. -/
def beginsWith (p : CodePoint → Bool) : Text → Bool
  | [] => false
  | c :: _ => p c

theorem fraction?_length {t f rest : Text} (h : fraction? t = some (f, rest)) :
    rest.length ≤ t.length := by
  unfold fraction? at h
  split at h
  · cases h
  · next c r =>
    split at h <;> cases h
    have := length_afterDigits_le r
    simp only [List.length_cons]; omega

theorem exponent?_length {t rest : Text} {e : Int} (h : exponent? t = some (e, rest)) :
    rest.length ≤ t.length := by
  unfold exponent? at h
  split at h
  · cases h
  · next c r =>
    simp only at h
    split at h <;> cases h
    have := length_afterDigits_le (Text.cutSign r).2
    have := Text.length_cutSign_le r
    simp only [List.length_cons]; omega

theorem optionalPart_length {α : Type} {d : Dialect} {t rest : Text} {begins : Bool}
    {part : Option (α × Text)} {a : Option α} (h : optionalPart d t begins part = .ok (a, rest))
    (hp : ∀ x r, part = some (x, r) → r.length ≤ t.length) : rest.length ≤ t.length := by
  unfold optionalPart at h
  split at h
  · next x r =>
    cases h
    exact hp x _ rfl
  · split at h
    · cases h
      exact Nat.le_refl _
    · split at h <;> cases h
      exact Nat.le_refl _

/-- The number that its parts denote. -/
def numberOf (d : Dialect) (negative : Bool) (whole : Text) (fraction : Option Text)
    (exponent : Option Int) : Except Mishap Value :=
  match fraction, exponent with
  | none, none => d.integer negative whole
  | fraction, exponent =>
    let places := fraction.getD []
    d.double (.ofDecimal negative (Text.natOfDigits (whole ++ places))
      (exponent.getD 0 - places.length))

/-- The number at the front of a text and the rest. -/
def number (d : Dialect) (t : Text) : Except Mishap (Value × Text) :=
  let (negative, unsigned) :=
    if beginsWith (CodePoint.is '-') t then (true, t.drop 1) else (false, t)
  match wholePart? unsigned with
  | none => .error (.problem .expectedValue t)
  | some (whole, rest) =>
    match optionalPart d rest (beginsWith (CodePoint.is '.') rest) (fraction? rest) with
    | .error m => .error m
    | .ok (fraction, rest) =>
      let marked := beginsWith (fun c => c = 'e' || c = 'E') rest
      match optionalPart d rest marked (exponent? rest) with
      | .error m => .error m
      | .ok (exponent, rest) =>
        match numberOf d negative whole fraction exponent with
        | .error m => .error m
        | .ok v => .ok (v, rest)

theorem number_length {d : Dialect} {t rest : Text} {v : Value} (h : number d t = .ok (v, rest)) :
    rest.length < t.length := by
  unfold number at h
  simp only at h
  split at h
  · cases h
  · next w r hw =>
    have h1 := wholePart?_length hw
    have h0 : (if beginsWith (CodePoint.is '-') t = true then (true, List.drop 1 t)
        else (false, t)).2.length ≤ t.length := by
      split <;> simp
    split at h
    · cases h
    · next f r' hf =>
      have h2 := optionalPart_length hf fun _ _ => fraction?_length
      split at h
      · cases h
      · next e r'' he =>
        have h3 := optionalPart_length he fun _ _ => exponent?_length
        split at h <;> cases h
        omega

/-- The first of some words that a text begins with: what it denotes and the rest. -/
def word? : List (Text × Value) → Text → Option (Value × Text)
  | [], _ => none
  | (w, v) :: more, t => if w.isPrefixOf t then some (v, t.drop w.length) else word? more t

theorem word?_length {ws : List (Text × Value)} {t rest : Text} {v : Value}
    (hne : ∀ w ∈ ws, w.1 ≠ []) (h : word? ws t = some (v, rest)) : rest.length < t.length := by
  induction ws with
  | nil => cases h
  | cons w ws ih =>
    obtain ⟨w, u⟩ := w
    rw [word?] at h
    split at h
    · next hp =>
      cases h
      have h1 : w ≠ [] := hne (w, v) (List.mem_cons_self ..)
      have h2 := (List.isPrefixOf_iff_prefix.1 hp).length_le
      have h3 := List.length_pos_iff.2 h1
      simp only [List.length_drop]; omega
    · exact ih (fun x hx => hne x (List.mem_cons_of_mem _ hx)) h

theorem words_ne_nil (d : Dialect) : ∀ w ∈ d.words, w.1 ≠ [] := by
  cases d <;> decide

/-- The string, word or number at the front of a text and the rest. -/
def scalar (d : Dialect) (t : Text) : Except Mishap (Value × Text) :=
  match t with
  | [] => .error (.problem .expectedValue t)
  | c :: rest =>
    if c = '"' then
      match string d rest with
      | .ok (s, rest') => .ok (.string s, rest')
      | .error m => .error m
    else match word? d.words t with
      | some r => .ok r
      | none => number d t

theorem scalar_length {d : Dialect} {t rest : Text} {v : Value} (h : scalar d t = .ok (v, rest)) :
    rest.length < t.length := by
  unfold scalar at h
  split at h
  · cases h
  · next c r =>
    split at h
    · split at h
      · next s r' hs =>
        cases h
        have := string_length hs
        simp only [List.length_cons]; omega
      · cases h
    · split at h
      · next w hw =>
        cases h
        exact word?_length (words_ne_nil d) hw
      · exact number_length h

end TypeSketch.Json
