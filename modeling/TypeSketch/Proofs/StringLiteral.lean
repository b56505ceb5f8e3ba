import TypeSketch.Proofs.Portable

/-!
# String literals of programs

A literal that was written for JSON stands in a program, which reads it by rules of its own. What is
written means the same under both, except that in a program an escape of sixteen bits is one code
point, even if another one follows that would complete it.

* `StringLiteral.read?`: the text that a literal denotes, and what stands behind it.
* `CodePoint.halves`, `Text.inHalves`: a code point as one or two numbers of sixteen bits.
* `StringLiteral.read?_quote`: **a written literal denotes the text in halves.**
* `Text.inHalves_eq_iff`: that is the text itself exactly when it has no code points beyond sixteen
  bits.
-/

namespace TypeSketch

/-! ## Halves -/

/-- A code point as the numbers of sixteen bits that stand for it. -/
def CodePoint.halves (c : CodePoint) : Text :=
  if c.val < 0x10000 then [c]
  else
    [.ofNat (0xD800 + (c.val - 0x10000) / 0x400), .ofNat (0xDC00 + (c.val - 0x10000) % 0x400)]

/-- A text with two halves for every code point beyond sixteen bits. -/
def Text.inHalves (t : Text) : Text := t.flatMap CodePoint.halves

/-- No code point of a text is beyond sixteen bits. -/
def Text.IsBasic (t : Text) : Prop := ∀ c ∈ t, c.val < 0x10000

instance (t : Text) : Decidable t.IsBasic := inferInstanceAs (Decidable (∀ c ∈ t, _))

theorem CodePoint.halves_of_lt {c : CodePoint} (h : c.val < 0x10000) : c.halves = [c] := if_pos h

theorem CodePoint.val_ofNat {n : Nat} (h : n < 0x110000) : (CodePoint.ofNat n).val = n := by
  rw [CodePoint.ofNat, dif_pos h]

/-- **A text is itself in halves exactly when no code point is beyond sixteen bits.** -/
theorem Text.inHalves_eq_iff {t : Text} : t.inHalves = t ↔ t.IsBasic := by
  induction t with
  | nil => simp [inHalves, IsBasic]
  | cons c t ih =>
    have hcons : inHalves (c :: t) = c.halves ++ inHalves t := List.flatMap_cons
    rw [hcons, IsBasic, List.forall_mem_cons]
    by_cases hc : c.val < 0x10000
    · rw [CodePoint.halves_of_lt hc, List.singleton_append, List.cons.injEq, ih]
      simp [hc, IsBasic]
    · -- the first half is no code point beyond sixteen bits
      have hlt := c.val_lt
      rw [CodePoint.halves, if_neg hc]
      refine iff_of_false (fun h => hc ?_) fun h => hc h.1
      rw [← (List.cons.inj h).1, CodePoint.val_ofNat (by omega)]
      omega

namespace StringLiteral

/-! ## Reading literals -/

/-- The escapes of one letter, with the numbers of the code points they denote. -/
def letterEscapes : List (Char × Nat) :=
  [('"', 0x22), ('\'', 0x27), ('\\', 0x5C), ('a', 7), ('b', 8), ('f', 12), ('n', 10), ('r', 13),
    ('t', 9), ('v', 11)]

/-- The escapes of a number, with how many hexadecimal digits it has. -/
def numberEscapes : List (Char × Nat) := [('x', 2), ('u', 4), ('U', 8)]

/-- What a table has for a letter. -/
def entry? (table : List (Char × Nat)) (c : CodePoint) : Option Nat :=
  (table.find? fun e => c = .ofChar e.1).map (·.2)

/-- A number of some more hexadecimal digits, and what stands behind it. -/
def number? : Nat → Nat → Text → Option (Nat × Text)
  | 0, n, t => some (n, t)
  | _ + 1, _, [] => none
  | digits + 1, n, c :: rest =>
    match c.hexVal? with
    | some d => number? digits (n * 16 + d) rest
    | none => none

theorem length_of_number? {digits n m : Nat} {t after : Text}
    (h : number? digits n t = some (m, after)) : after.length ≤ t.length := by
  induction digits generalizing n t with
  | zero => cases h; exact Nat.le_refl _
  | succ digits ih =>
    cases t with
    | nil => cases h
    | cons c rest =>
      rw [number?] at h
      split at h
      · exact (ih h).trans (Nat.le_succ _)
      · cases h

/-- What stands behind a backslash, if it is one of these escapes: the code point that it denotes,
and the text behind it. Escapes by octal digits or by the name of a character, and a line that goes
on behind a backslash, are not read. -/
def escape? : Text → Option (CodePoint × Text)
  | [] => none
  | c :: rest =>
    match entry? letterEscapes c, entry? numberEscapes c with
    | some n, _ => some (.ofNat n, rest)
    | none, some digits =>
      match number? digits 0 rest with
      | some (n, after) => if n < 0x110000 then some (.ofNat n, after) else none
      | none => none
    | none, none => none

theorem length_of_escape? {t after : Text} {c : CodePoint} (h : escape? t = some (c, after)) :
    after.length < t.length := by
  cases t with
  | nil => cases h
  | cons e rest =>
    rw [escape?] at h
    split at h
    · cases h; exact Nat.lt_succ_self _
    · split at h
      · next hn =>
        split at h
        · cases h; exact Nat.lt_succ_of_le (length_of_number? hn)
        · cases h
      · cases h
    · cases h

/-- The text of a literal up to its closing quote, and what stands behind it, given what was read,
latest first. -/
def body? (acc : Text) (t : Text) : Option (Text × Text) :=
  match t with
  | [] => none
  | c :: rest =>
    if c = '"' then some (acc.reverse, rest)
    else if c = '\n' || c = '\r' then none
    else if c = '\\' then
      match _h : escape? rest with
      | some (d, after) => body? (d :: acc) after
      | none => none
    else body? (c :: acc) rest
termination_by t.length
decreasing_by
  · exact Nat.lt_succ_of_lt (length_of_escape? _h)
  · exact Nat.lt_succ_self _

/-- The text that a literal denotes, and what stands behind it. -/
def read? : Text → Option (Text × Text)
  | [] => none
  | c :: rest => if c = '"' then body? [] rest else none

/-! ## Literals written for JSON -/

variable {c d : CodePoint} {t rest : Text}

theorem body?_escape (acc : Text) {after : Text} (h : escape? rest = some (d, after)) :
    body? acc (('\\' : CodePoint) :: rest) = body? (d :: acc) after := by
  rw [body?, if_neg (by decide), if_neg (by decide), if_pos rfl]
  split
  · next h' =>
    rw [h] at h'
    cases h'
    rfl
  · next h' =>
    rw [h] at h'
    cases h'

theorem escape?_unit {n : Nat} (h : n < 0x10000) (rest : Text) :
    escape? (('u' : CodePoint) :: (Text.hex 4 n ++ rest)) = some (.ofNat n, rest) := by
  have hdigit : ∀ m, (Text.hexDigit (m % 16)).hexVal? = some (m % 16) := fun m =>
    Json.hexVal?_hexDigit _ (Nat.mod_lt _ (by decide))
  have hn : (((0 * 16 + n / 16 / 16 / 16 % 16) * 16 + n / 16 / 16 % 16) * 16 + n / 16 % 16) * 16 +
      n % 16 = n := by
    omega
  have hnumber : number? 4 0 (Text.hex 4 n ++ rest) = some (n, rest) := by
    simp only [Text.hex, List.nil_append, List.cons_append, number?, hdigit, hn]
  have hletter : entry? letterEscapes ('u' : CodePoint) = none := by decide
  have hdigits : entry? numberEscapes ('u' : CodePoint) = some 4 := by decide
  rw [escape?, hletter, hdigits]
  dsimp only
  rw [hnumber]
  exact if_pos (by omega)

theorem body?_unit {n : Nat} (h : n < 0x10000) (acc rest : Text) :
    body? acc (Json.unicodeUnit n ++ rest) = body? (.ofNat n :: acc) rest :=
  body?_escape acc (escape?_unit h rest)

/-- The letters of JSON denote the same in a program, except that a slash is not written so. -/
theorem escape?_letter {letter : CodePoint} (hletter : Json.simpleEscape? letter = some c)
    (hslash : c ≠ '/') (rest : Text) :
    escape? (letter :: rest) = some (c, rest) ∧ c.val < 0x10000 := by
  rw [Json.simpleEscape?] at hletter
  split_ifs at hletter with h <;> cases hletter
  · simp only [Bool.or_eq_true, decide_eq_true_eq, hslash, or_false] at h
    rcases h with rfl | rfl <;> exact ⟨rfl, by decide⟩
  all_goals
    subst letter
    exact ⟨rfl, by decide⟩

/-- **What was written for a code point is read as its halves.** -/
theorem body?_escapeAscii (acc rest : Text) :
    body? acc (Json.escapeAscii c ++ rest) = body? (c.halves.reverse ++ acc) rest := by
  have hprintable : ∀ d ∈ Json.escapeAscii c, d.IsPrintable := fun _ =>
    Json.isPrintable_of_mem_escapeAscii
  rcases Json.escapeAscii_cases c with ⟨letter, h, hletter, -⟩ | ⟨h, hquote, hslash, hc⟩ |
    ⟨h, hc⟩ | ⟨n, hn, rfl, h⟩
  · have hne : c ≠ '/' := by
      rintro rfl
      cases h
    obtain ⟨hescape, hlt⟩ := escape?_letter hletter hne rest
    rw [h, CodePoint.halves_of_lt hlt]
    exact body?_escape acc hescape
  · -- such a code point is printable, and so no end of a line
    have hlt : c.val < 0x7F := (hprintable c (h ▸ List.mem_singleton_self c)).2
    have hline : (decide (c = '\n') || decide (c = '\r')) = false := by
      simp only [Bool.or_eq_false_iff, decide_eq_false_iff_not]
      exact ⟨fun he => hc (he ▸ by decide), fun he => hc (he ▸ by decide)⟩
    rw [h, CodePoint.halves_of_lt (hlt.trans (by decide)), List.singleton_append, body?.eq_def]
    dsimp only
    rw [if_neg hquote, if_neg (by simp [hline]), if_neg hslash]
    rfl
  · rw [h, CodePoint.halves_of_lt hc, body?_unit hc, Json.ofNat_val]
    rfl
  · have hval : (CodePoint.ofNat (0x10000 + n)).val = 0x10000 + n :=
      CodePoint.val_ofNat (by omega)
    rw [h, List.append_assoc, body?_unit (by omega), body?_unit (by omega), CodePoint.halves,
      hval, if_neg (by omega), Nat.add_sub_cancel_left]
    rfl

theorem body?_escaped (acc x : Text) :
    body? acc (t.flatMap Json.escapeAscii ++ ('"' : CodePoint) :: x) =
      some (acc.reverse ++ t.inHalves, x) := by
  induction t generalizing acc with
  | nil =>
    rw [List.flatMap_nil, List.nil_append, body?, if_pos rfl, Text.inHalves, List.flatMap_nil,
      List.append_nil]
  | cons c t ih =>
    rw [List.flatMap_cons, List.append_assoc, body?_escapeAscii, ih, List.reverse_append,
      List.reverse_reverse, List.append_assoc]
    rfl

/-- **A written literal denotes the text in halves.** -/
theorem read?_quote (t x : Text) : read? (Json.quote t ++ x) = some (t.inHalves, x) := by
  rw [Json.quote_append, read?, if_pos rfl, body?_escaped]
  rfl

/-- Beyond sixteen bits, the literal is one of another text. -/
example : read? (Json.quote [.ofNat 0x1F600]) = some ([.ofNat 0xD83D, .ofNat 0xDE00], []) := by
  decide +kernel

end StringLiteral

end TypeSketch
