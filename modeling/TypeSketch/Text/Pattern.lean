import TypeSketch.Text

/-!
# Patterns of texts

* `Pattern`: what a text may look like.
* `Pattern.Matches`: that a text looks like that.
* `Pattern.accepts`: whether it does, one code point after another.
* `Pattern.accepts_iff`: the two agree.
-/

namespace TypeSketch

/-- What a text may look like. -/
inductive Pattern where
  /-- No text. -/
  | never
  /-- The empty text. -/
  | empty
  /-- One code point of a class. -/
  | one (p : CodePoint → Bool)
  /-- A text like the first and behind it one like the second. -/
  | seq (a b : Pattern)
  | either (a b : Pattern)
  /-- Any number of texts in a row. -/
  | many (a : Pattern)

namespace Pattern

/-- That a text looks like a pattern. -/
inductive Matches : Pattern → Text → Prop where
  | empty : Matches .empty []
  | one {p : CodePoint → Bool} {c : CodePoint} (h : p c = true) : Matches (.one p) [c]
  | seq {a b : Pattern} {s t : Text} (ha : Matches a s) (hb : Matches b t) :
      Matches (.seq a b) (s ++ t)
  | left {a b : Pattern} {t : Text} (h : Matches a t) : Matches (.either a b) t
  | right {a b : Pattern} {t : Text} (h : Matches b t) : Matches (.either a b) t
  | none {a : Pattern} : Matches (.many a) []
  | some {a : Pattern} {c : CodePoint} {s t : Text} (ha : Matches a (c :: s))
      (hr : Matches (.many a) t) : Matches (.many a) (c :: s ++ t)

/-- Whether the empty text looks like a pattern. -/
def takesEmpty : Pattern → Bool
  | never => false
  | empty => true
  | one _ => false
  | seq a b => a.takesEmpty && b.takesEmpty
  | either a b => a.takesEmpty || b.takesEmpty
  | many _ => true

/-- One pattern behind another; nothing is behind a pattern that no text has. -/
def andThen : Pattern → Pattern → Pattern
  | never, _ => never
  | a, b => seq a b

/-- One of two patterns, of which only the possible one is kept. -/
def orElse : Pattern → Pattern → Pattern
  | never, b => b
  | a, never => a
  | a, b => either a b

/-- What the rest of a text looks like behind a code point. -/
def after (c : CodePoint) : Pattern → Pattern
  | never => never
  | empty => never
  | one p => if p c then empty else never
  | seq a b =>
    if a.takesEmpty then orElse (andThen (a.after c) b) (b.after c) else andThen (a.after c) b
  | either a b => orElse (a.after c) (b.after c)
  | many a => andThen (a.after c) (many a)

/-- Whether a text looks like a pattern. -/
def accepts (p : Pattern) : Text → Bool
  | [] => p.takesEmpty
  | c :: rest => (p.after c).accepts rest

theorem matches_either {a b : Pattern} {t : Text} :
    (either a b).Matches t ↔ a.Matches t ∨ b.Matches t := by
  constructor
  · intro h
    cases h with
    | left h => exact .inl h
    | right h => exact .inr h
  · exact fun h => h.elim .left .right

theorem takesEmpty_iff {p : Pattern} : p.takesEmpty = true ↔ p.Matches [] := by
  induction p with
  | never => exact ⟨fun h => (by cases h), fun h => (by cases h)⟩
  | empty => exact ⟨fun _ => .empty, fun _ => rfl⟩
  | one p => exact ⟨fun h => (by cases h), fun h => (by cases h)⟩
  | seq a b iha ihb =>
    rw [takesEmpty, Bool.and_eq_true, iha, ihb]
    constructor
    · rintro ⟨ha, hb⟩
      exact .seq ha hb
    · generalize ht : ([] : Text) = t
      rintro (_ | _ | ⟨ha, hb⟩)
      obtain ⟨rfl, rfl⟩ := List.append_eq_nil_iff.mp ht.symm
      exact ⟨ha, hb⟩
  | either a b iha ihb =>
    rw [takesEmpty, Bool.or_eq_true, iha, ihb, matches_either]
  | many a => exact ⟨fun _ => .none, fun _ => rfl⟩

theorem andThen_iff {a b : Pattern} {t : Text} : (andThen a b).Matches t ↔ (seq a b).Matches t := by
  cases a with
  | never =>
    constructor
    · intro h; cases h
    · rintro (_ | _ | ⟨ha, _⟩); cases ha
  | _ => exact Iff.rfl

theorem orElse_iff {a b : Pattern} {t : Text} :
    (orElse a b).Matches t ↔ a.Matches t ∨ b.Matches t := by
  have no {t : Text} : ¬ never.Matches t := fun h => by cases h
  cases a <;> cases b <;> simp only [orElse, matches_either, no, false_or, or_false]

theorem matches_seq_cons {a b : Pattern} {c : CodePoint} {t : Text} :
    (seq a b).Matches (c :: t) ↔
      (∃ u v, t = u ++ v ∧ a.Matches (c :: u) ∧ b.Matches v) ∨
        (a.Matches [] ∧ b.Matches (c :: t)) := by
  constructor
  · generalize hs : c :: t = s
    rintro (_ | _ | @⟨_, _, u, v, ha, hb⟩)
    cases u with
    | nil => exact .inr ⟨ha, hb⟩
    | cons d u =>
      rw [List.cons_append, List.cons.injEq] at hs
      obtain ⟨rfl, rfl⟩ := hs
      exact .inl ⟨u, v, rfl, ha, hb⟩
  · rintro (⟨u, v, rfl, ha, hb⟩ | ⟨ha, hb⟩)
    · exact .seq ha hb
    · exact .seq ha hb

theorem matches_many_cons {a : Pattern} {c : CodePoint} {t : Text} :
    (many a).Matches (c :: t) ↔ ∃ u v, t = u ++ v ∧ a.Matches (c :: u) ∧ (many a).Matches v := by
  constructor
  · generalize hs : c :: t = s
    intro h
    cases h with
    | none => cases hs
    | some ha hr =>
      rw [List.cons_append, List.cons.injEq] at hs
      obtain ⟨rfl, rfl⟩ := hs
      exact ⟨_, _, rfl, ha, hr⟩
  · rintro ⟨u, v, rfl, ha, hr⟩
    exact .some ha hr

theorem after_iff {p : Pattern} {c : CodePoint} {t : Text} :
    (p.after c).Matches t ↔ p.Matches (c :: t) := by
  induction p generalizing t with
  | never => exact ⟨fun h => (by cases h), fun h => (by cases h)⟩
  | empty => exact ⟨fun h => (by cases h), fun h => (by cases h)⟩
  | one p =>
    rw [after]
    by_cases hp : p c = true
    · rw [if_pos hp]
      constructor
      · intro h
        cases h
        exact .one hp
      · intro h
        cases h
        exact .empty
    · rw [if_neg hp]
      constructor
      · intro h
        cases h
      · intro h
        cases h
        contradiction
  | seq a b iha ihb =>
    have front {t : Text} : (seq (a.after c) b).Matches t ↔
        ∃ u v, t = u ++ v ∧ a.Matches (c :: u) ∧ b.Matches v := by
      constructor
      · rintro (_ | _ | ⟨ha, hb⟩)
        exact ⟨_, _, rfl, iha.1 ha, hb⟩
      · rintro ⟨u, v, rfl, ha, hb⟩
        exact .seq (iha.2 ha) hb
    rw [after, matches_seq_cons, ← front]
    by_cases he : a.takesEmpty = true
    · rw [if_pos he, orElse_iff, andThen_iff, ihb]
      simp [takesEmpty_iff.1 he]
    · rw [if_neg he, andThen_iff]
      simp [mt takesEmpty_iff.2 he]
  | either a b iha ihb =>
    rw [after, orElse_iff, iha, ihb, matches_either]
  | many a iha =>
    rw [after, andThen_iff, matches_many_cons]
    constructor
    · rintro (_ | _ | ⟨ha, hr⟩)
      exact ⟨_, _, rfl, iha.1 ha, hr⟩
    · rintro ⟨u, v, rfl, ha, hr⟩
      exact .seq (iha.2 ha) hr

/-- **A text is accepted exactly when it matches.** -/
theorem accepts_iff {p : Pattern} {t : Text} : p.accepts t = true ↔ p.Matches t := by
  induction t generalizing p with
  | nil => exact takesEmpty_iff
  | cons c rest ih => rw [accepts, ih, after_iff]

/-- One after another. -/
def row : List Pattern → Pattern
  | [] => empty
  | [p] => p
  | p :: rest => seq p (row rest)

/-- One of several. -/
def oneOf (patterns : List Pattern) : Pattern := patterns.foldr either never

/-- A pattern or nothing. -/
def optional (p : Pattern) : Pattern := either p empty

/-- A pattern at least once. -/
def atLeastOne (p : Pattern) : Pattern := seq p (many p)

/-- One character. -/
def char (c : Char) : Pattern := one (CodePoint.is c)

/-- One of some characters. -/
def among (cs : String) : Pattern := one fun c => List.contains (Text.ofString cs) c

/-- A word. -/
def word (w : String) : Pattern := row ((Text.ofString w).map fun c => one (· = c))

/-- One of `0` to `9`. -/
def digit : Pattern := one CodePoint.isDigit

end Pattern

end TypeSketch
