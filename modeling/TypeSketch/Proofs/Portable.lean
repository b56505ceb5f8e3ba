import TypeSketch.Proofs.Integers
import TypeSketch.Proofs.Literal

/-!
# Values that every reader takes

The two dialects agree on values whose integers are below `2 ^ 63` in magnitude and whose texts are
made of Unicode scalar values. Written on one line such a value is printable ASCII.

* `Value.Portable`: these values.
* `Value.nesting`: how many arrays and objects lie within one another.
* `printable_compact`: **a portable value is written in printable ASCII characters.**
* `compact_begins`: the character that it begins with tells whether it is an array.
-/

namespace TypeSketch

namespace Value

/-- **The values that every reader takes.** -/
inductive Portable : Value → Prop where
  | null : Portable .null
  | bool (b : Bool) : Portable (.bool b)
  | int {n : Int} (hlow : -2 ^ 63 < n) (hhigh : n < 2 ^ 63) : Portable (.number (.int n))
  | string {t : Text} (ht : ∀ c ∈ t, c.isSurrogate = false) : Portable (.string t)
  | array {elements : List Value} (h : ∀ v ∈ elements, Portable v) : Portable (.array elements)
  | object {members : List (Text × Value)} (hd : (Entries.names members).Nodup)
    (hnames : ∀ m ∈ members, ∀ c ∈ m.1, c.isSurrogate = false)
    (h : ∀ m ∈ members, Portable m.2) : Portable (.object members)

mutual

/-- How many arrays and objects of a value lie within one another at most. -/
def nesting : Value → Nat
  | .array elements => elementsNesting elements + 1
  | .object members => membersNesting members + 1
  | _ => 0

/-- The greatest nesting of some elements. -/
def elementsNesting : List Value → Nat
  | [] => 0
  | v :: rest => max (nesting v) (elementsNesting rest)

/-- The greatest nesting of what some members hold. -/
def membersNesting : List (Text × Value) → Nat
  | [] => 0
  | (_, v) :: rest => max (nesting v) (membersNesting rest)

end

theorem nesting_le_elementsNesting {v : Value} {vs : List Value} (h : v ∈ vs) :
    v.nesting ≤ elementsNesting vs := by
  induction h with
  | head rest => exact Nat.le_max_left _ _
  | tail w _ ih => exact Nat.le_trans ih (Nat.le_max_right _ _)

theorem nesting_le_membersNesting {m : Text × Value} {ms : List (Text × Value)} (h : m ∈ ms) :
    m.2.nesting ≤ membersNesting ms := by
  induction h with
  | head rest => exact Nat.le_max_left _ _
  | tail m _ ih => exact Nat.le_trans ih (Nat.le_max_right _ _)

end Value

/-- A printable ASCII character. -/
def CodePoint.IsPrintable (c : CodePoint) : Prop := 0x20 ≤ c.val ∧ c.val < 0x7F

instance : DecidablePred CodePoint.IsPrintable := fun c =>
  inferInstanceAs (Decidable (0x20 ≤ c.val ∧ c.val < 0x7F))

theorem CodePoint.IsPrintable.not_surrogate {c : CodePoint} (h : c.IsPrintable) :
    c.isSurrogate = false := by
  obtain ⟨hlow, hhigh⟩ := h
  simp only [isSurrogate, Bool.and_eq_false_iff, decide_eq_false_iff_not]
  omega

theorem CodePoint.isPrintable_of_isDigit {c : CodePoint} (h : c.isDigit = true) :
    c.IsPrintable := by
  simp only [isDigit, Bool.and_eq_true, decide_eq_true_eq] at h
  unfold IsPrintable
  omega

/-- What all hexadecimal digits are, the digits of a number are. -/
theorem Text.forall_mem_hex {p : CodePoint → Prop} (hp : ∀ d < 16, p (hexDigit d)) (width n : Nat) :
    ∀ c ∈ hex width n, p c := by
  induction width generalizing n with
  | zero => nofun
  | succ w ih =>
    intro c hc
    rw [hex, List.mem_append, List.mem_singleton] at hc
    rcases hc with hc | rfl
    · exact ih _ c hc
    · exact hp _ (Nat.mod_lt n (by decide))

namespace Json

variable {c : CodePoint} {t : Text} {v : Value}

/-! ## What is written -/

theorem isPrintable_of_simpleEscape? {e : CodePoint} (h : simpleEscape? e = some c) :
    e.IsPrintable := by
  unfold simpleEscape? at h
  split_ifs at h with h1 h2 h3 h4 h5 h6
  · simp only [Bool.or_eq_true, decide_eq_true_eq] at h1
    rcases h1 with (rfl | rfl) | rfl <;> decide
  all_goals subst e; decide

theorem isPrintable_of_mem_unicodeUnit {n : Nat} (h : c ∈ unicodeUnit n) : c.IsPrintable := by
  rw [unicodeUnit, List.mem_append] at h
  rcases h with h | h
  · revert c
    decide
  · exact Text.forall_mem_hex (by decide) 4 n c h

theorem isPrintable_of_mem_escapeAscii {e : CodePoint} (h : e ∈ escapeAscii c) :
    e.IsPrintable := by
  unfold escapeAscii at h
  split at h
  · next he =>
    rcases escape?_eq_some he with ⟨letter, rfl, hletter, -⟩ | ⟨rfl, -⟩
    · rw [List.mem_cons, List.mem_singleton] at h
      rcases h with rfl | rfl
      · decide
      · exact isPrintable_of_simpleEscape? hletter
    · exact isPrintable_of_mem_unicodeUnit h
  · next he =>
    split_ifs at h with h1 h2
    · obtain rfl := List.mem_singleton.1 h
      exact ⟨Nat.not_lt.1 (escape?_eq_none he).2.2, h1⟩
    · exact isPrintable_of_mem_unicodeUnit h
    · rcases List.mem_append.1 h with h | h <;> exact isPrintable_of_mem_unicodeUnit h

theorem isPrintable_of_mem_quote (h : c ∈ quote t) : c.IsPrintable := by
  have hquote : ∀ c ∈ Text.ofString "\"", c.IsPrintable := by decide
  rw [quote, quoteBy, List.mem_append, List.mem_append] at h
  rcases h with (h | h) | h
  · exact hquote c h
  · obtain ⟨d, -, hd⟩ := List.mem_flatMap.1 h
    exact isPrintable_of_mem_escapeAscii hd
  · exact hquote c h

theorem isPrintable_of_mem_decimalInt {n : Int} (h : c ∈ Text.decimalInt n) : c.IsPrintable := by
  cases n with
  | ofNat n => exact CodePoint.isPrintable_of_isDigit (Text.isDigit_of_mem_decimal c h)
  | negSucc n =>
    rw [Text.decimalInt, List.mem_cons] at h
    rcases h with rfl | h
    · decide
    · exact CodePoint.isPrintable_of_isDigit (Text.isDigit_of_mem_decimal c h)

/-- A member on one line. -/
def compactMember (m : Text × Value) : Text := quote m.1 ++ ((": " : Text) ++ compact m.2)

theorem compactElements_cons (v : Value) (vs : List Value) :
    compactElements (v :: vs) = compact v ++ vs.flatMap fun w => (", " : Text) ++ compact w := by
  induction vs generalizing v with
  | nil => exact (List.append_nil _).symm
  | cons w vs ih => rw [compactElements, ih, List.flatMap_cons, List.append_assoc, List.append_assoc]

theorem compactMembers_cons (m : Text × Value) (ms : List (Text × Value)) :
    compactMembers (m :: ms) =
      compactMember m ++ ms.flatMap fun m => (", " : Text) ++ compactMember m := by
  obtain ⟨name, v⟩ := m
  induction ms generalizing name v with
  | nil =>
    rw [compactMembers, compactMember, List.append_assoc]
    exact (List.append_nil _).symm
  | cons m ms ih =>
    have hmember : compactMember (name, v) = quote name ++ ((": " : Text) ++ compact v) := rfl
    rw [compactMembers, ih, List.flatMap_cons, hmember]
    simp only [List.append_assoc]

/-- Things that are written in printable characters stay so with commas between them. -/
theorem isPrintable_listed {α : Type} {p : α → Text} {a : α} {as : List α}
    (h : ∀ x ∈ a :: as, ∀ c ∈ p x, c.IsPrintable) :
    ∀ c ∈ p a ++ as.flatMap fun x => (", " : Text) ++ p x, c.IsPrintable := by
  have hcomma : ∀ c ∈ Text.ofString ", ", c.IsPrintable := by decide
  rw [List.forall_mem_cons] at h
  intro c hc
  rcases List.mem_append.1 hc with hc | hc
  · exact h.1 c hc
  · obtain ⟨x, hx, hc⟩ := List.mem_flatMap.1 hc
    exact (List.mem_append.1 hc).elim (hcomma c) (h.2 x hx c)

/-- What is written between brackets is written in printable characters. -/
theorem isPrintable_bracketed {first last : Text} (hfirst : ∀ c ∈ first, c.IsPrintable)
    (hlast : ∀ c ∈ last, c.IsPrintable) (ht : ∀ c ∈ t, c.IsPrintable) :
    ∀ c ∈ first ++ t ++ last, c.IsPrintable := by
  intro c hc
  rw [List.mem_append, List.mem_append] at hc
  rcases hc with (hc | hc) | hc
  · exact hfirst c hc
  · exact ht c hc
  · exact hlast c hc

theorem isPrintable_compactMember {m : Text × Value} (h : ∀ c ∈ compact m.2, c.IsPrintable) :
    ∀ c ∈ compactMember m, c.IsPrintable := by
  have hcolon : ∀ c ∈ Text.ofString ": ", c.IsPrintable := by decide
  intro c hc
  rw [compactMember, List.mem_append, List.mem_append] at hc
  rcases hc with hc | hc | hc
  · exact isPrintable_of_mem_quote hc
  · exact hcolon c hc
  · exact h c hc

/-- **A portable value is written in printable ASCII characters.** -/
theorem printable_compact (hv : v.Portable) : ∀ c ∈ compact v, c.IsPrintable := by
  induction hv with
  | null => decide
  | bool b => cases b <;> decide
  | int => exact fun c hc => isPrintable_of_mem_decimalInt hc
  | string => exact fun c hc => isPrintable_of_mem_quote hc
  | @array vs _ ih =>
    refine isPrintable_bracketed (by decide) (by decide) ?_
    cases vs with
    | nil => nofun
    | cons v vs =>
      rw [compactElements_cons]
      exact isPrintable_listed ih
  | @object ms _ _ _ ih =>
    refine isPrintable_bracketed (by decide) (by decide) ?_
    cases ms with
    | nil => nofun
    | cons m ms =>
      rw [compactMembers_cons]
      exact isPrintable_listed fun m hm => isPrintable_compactMember (ih m hm)

/-- A portable value begins with a visible character. Only an array or object begins with an opening
bracket, and nothing begins with what ends an array. -/
theorem compact_begins (hv : v.Portable) :
    ∃ c rest, compact v = c :: rest ∧ 0x20 < c.val ∧ c.val < 0x7F ∧ c ≠ ']' ∧
      (c = '[' → ∃ vs, v = .array vs) ∧ (c = '\x7b' → ∃ ms, v = .object ms) := by
  have hdecimal : ∀ n, ∃ c rest, Text.decimal n = c :: rest ∧ 0x30 ≤ c.val ∧ c.val ≤ 0x39 := by
    intro n
    obtain ⟨c, rest, hc⟩ := List.exists_cons_of_ne_nil (Text.decimal_ne_nil n)
    have hdigit := Text.isDigit_of_mem_decimal c (hc ▸ List.mem_cons_self)
    exact ⟨c, rest, hc, by simpa [CodePoint.isDigit] using hdigit⟩
  have hother : ∀ {c : CodePoint} {rest : Text}, compact v = c :: rest →
      0x20 < c.val ∧ c.val < 0x7F ∧ c ≠ ']' ∧ c ≠ '[' ∧ c ≠ '\x7b' →
        ∃ c rest, compact v = c :: rest ∧ 0x20 < c.val ∧ c.val < 0x7F ∧ c ≠ ']' ∧
          (c = '[' → ∃ vs, v = .array vs) ∧ (c = '\x7b' → ∃ ms, v = .object ms) := by
    rintro c rest hc ⟨hlow, hhigh, hclose, hbracket, hbrace⟩
    exact ⟨_, _, hc, hlow, hhigh, hclose, fun h => absurd h hbracket, fun h => absurd h hbrace⟩
  cases hv with
  | null => exact hother rfl (by decide)
  | bool b => cases b <;> exact hother rfl (by decide)
  | @int n =>
    cases n with
    | ofNat n =>
      obtain ⟨c, rest, hc, hlow, hhigh⟩ := hdecimal n
      refine hother hc ⟨by omega, by omega, ?_, ?_, ?_⟩ <;> rintro rfl <;> revert hhigh <;> decide
    | negSucc n => exact hother rfl (by decide)
  | string => exact hother rfl (by decide)
  | array =>
    exact ⟨'[', _, rfl, by decide, by decide, by decide, fun _ => ⟨_, rfl⟩,
      fun h => absurd h (by decide)⟩
  | object =>
    exact ⟨'\x7b', _, rfl, by decide, by decide, by decide, fun h => absurd h (by decide),
      fun _ => ⟨_, rfl⟩⟩

end Json

end TypeSketch
