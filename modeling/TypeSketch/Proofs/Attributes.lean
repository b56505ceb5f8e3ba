import Mathlib.Data.List.Nodup
import TypeSketch.Target.Dataclass

/-!
# Attribute names

How a key becomes an attribute name, whatever the rules for such names are.

* `freshen_steps`: the search for a free name stops at the first one, after at most as many steps
  as there are taken names.
* `AttributeRules.name_eq`: what is put around the words of a key.
* `AttributeRules.name_not_mem`: words that may not be used and end in no underscore are no names.
* `AttributeRules.isIdentifier_name_iff`: when a name is an identifier.
* `AttributeRules.name_fresh_word`: **a name is free and no keyword, and it is an identifier unless
  a word character of its key cannot stand in one.**
* `AttributeRules.nodup_names`: the names of several keys differ.
-/

namespace TypeSketch

/-! ## Identifiers -/

namespace Text

variable {t u : Text}

theorem continues_of_isIdentifier (h : t.isIdentifier = true) :
    ∀ c ∈ t, c.continuesIdentifier = true := by
  cases t with
  | nil => cases h
  | cons c t =>
    rw [isIdentifier, Bool.and_eq_true] at h
    exact List.forall_mem_cons.2
      ⟨CodePoint.continuesIdentifier_of_startsIdentifier h.1, List.all_eq_true.1 h.2⟩

/-- What no identifier goes on with is not in an identifier. -/
theorem not_mem_of_isIdentifier (h : t.isIdentifier = true) {c : CodePoint}
    (hc : c.continuesIdentifier = false) : c ∉ t := fun hmem =>
  Bool.eq_false_iff.1 hc (continues_of_isIdentifier h c hmem)

theorem isIdentifier_append (h : t.isIdentifier = true)
    (hu : ∀ c ∈ u, c.continuesIdentifier = true) : (t ++ u).isIdentifier = true := by
  cases t with
  | nil => cases h
  | cons c t =>
    rw [isIdentifier, Bool.and_eq_true] at h
    rw [List.cons_append, isIdentifier, Bool.and_eq_true, List.all_append, Bool.and_eq_true]
    exact ⟨h.1, h.2, List.all_eq_true.2 hu⟩

theorem mem_times {n : Nat} {c d : CodePoint} (h : d ∈ times n c) : d = c :=
  List.eq_of_mem_replicate h

/-- A text with underscores behind it ends in one. -/
theorem getLast?_append_underscores (t : Text) (k : Nat) :
    (t ++ times (k + 1) '_').getLast? = some ('_' : CodePoint) := by
  rw [times, List.replicate_succ', ← List.append_assoc, List.getLast?_concat]

end Text

/-! ## Free names -/

/-- **The search for a free name stops at the first one**: every name tried before it is taken, so
there are no more steps than taken names. -/
theorem freshen_steps (taken : List Text) (name : Text) :
    ∃ k ≤ taken.length, freshen taken name = name ++ Text.times k '_' ∧
      ∀ j < k, name ++ Text.times j '_' ∈ taken := by
  fun_induction freshen taken name with
  | case1 taken name h ih =>
    obtain ⟨k, hk, heq, htried⟩ := ih
    have hlength := List.length_erase_of_mem h
    have hpos := List.length_pos_of_mem h
    refine ⟨k + 1, by omega, ?_, fun j hj => ?_⟩
    · rw [heq, List.append_assoc]
      rfl
    · cases j with
      | zero => rwa [Text.times, List.replicate_zero, List.append_nil]
      | succ j =>
        have hmem := List.mem_of_mem_erase (htried j (by omega))
        rwa [List.append_assoc] at hmem
  | case2 taken name h =>
    exact ⟨0, Nat.zero_le _, (List.append_nil name).symm, fun j hj => absurd hj (Nat.not_lt_zero j)⟩

namespace AttributeRules

variable {rules : AttributeRules} {taken : List Text} {key : Text}

/-! ## Words of a key -/

theorem forall_mem_dropWhile {p : CodePoint → Bool} {q : CodePoint → Prop}
    (h : ∀ c, p c = true → q c) (t : Text) : (∀ c ∈ t.dropWhile p, q c) ↔ ∀ c ∈ t, q c := by
  induction t with
  | nil => rfl
  | cons c t ih =>
    rw [List.dropWhile_cons]
    split
    · next hp => rw [ih, List.forall_mem_cons, and_iff_right (h c hp)]
    · rfl

/-- What holds of underscores holds of a stem if it holds of the words of the key. -/
theorem forall_mem_stem {q : CodePoint → Prop} (h : q '_') :
    (∀ c ∈ rules.stem key, q c) ↔ ∀ c ∈ key, c.isWord = true → q c := by
  have hwords : (∀ c ∈ words key, q c) ↔ ∀ c ∈ key, c.isWord = true → q c := by
    rw [words, List.forall_mem_map]
    refine forall₂_congr fun c _ => ?_
    by_cases hc : c.isWord = true <;> simp [hc, h]
  rw [stem]
  split
  · exact hwords
  · rw [forall_mem_dropWhile ?_, hwords]
    intro c hc
    rwa [of_decide_eq_true hc]

/-- A stem stays as it is if it is an identifier, and is put behind `field_` otherwise. -/
theorem qualified_cases (rules : AttributeRules) (stem : Text) :
    (rules.qualified stem = stem ∧ stem.isIdentifier = true) ∨
      rules.qualified stem = ("field_" : Text) ++ stem := by
  rw [qualified]
  split
  · next h => exact .inl ⟨rfl, (Bool.and_eq_true _ _ ▸ h).1⟩
  · exact .inr rfl

/-- A name is the qualified stem with underscores behind it. -/
theorem name_eq (rules : AttributeRules) (taken : List Text) (key : Text) :
    ∃ k, rules.name taken key = rules.qualified (rules.stem key) ++ Text.times k '_' := by
  obtain ⟨k, hk⟩ := freshen_eq taken (rules.allowed (rules.qualified (rules.stem key)))
  rw [name, hk, allowed]
  split
  · exact ⟨k + 1, by rw [List.append_assoc]; rfl⟩
  · exact ⟨k, rfl⟩

/-- A name consists of word characters. -/
theorem isWord_of_mem_name : ∀ c ∈ rules.name taken key, c.isWord = true := by
  have hstem : ∀ c ∈ rules.stem key, c.isWord = true :=
    (forall_mem_stem (by decide)).2 fun c _ h => h
  obtain ⟨k, hk⟩ := name_eq rules taken key
  rw [hk]
  refine List.forall_mem_append.2 ⟨?_, fun c hc => ?_⟩
  · rcases qualified_cases rules (rules.stem key) with ⟨h, -⟩ | h <;> rw [h]
    · exact hstem
    · exact List.forall_mem_append.2 ⟨by decide, hstem⟩
  · rw [Text.mem_times hc]
    decide

/-! ## What a name is not -/

theorem name_not_mem_taken : rules.name taken key ∉ taken := freshen_not_mem _ _

/-- **Words that may not be used are no names**, if they end in no underscore: the only underscores
that are added are behind a name. -/
theorem name_not_mem {banned : List Text}
    (hb : ∀ w ∈ banned, TypeHint.isKeyword w = true ∨ w ∈ rules.reserved)
    (hlast : ∀ w ∈ banned, w.getLast? ≠ some ('_' : CodePoint)) :
    rules.name taken key ∉ banned := by
  intro hmem
  obtain ⟨k, hk⟩ := freshen_eq taken (rules.allowed (rules.qualified (rules.stem key)))
  rw [name, hk] at hmem
  cases k with
  | succ k => exact hlast _ hmem (Text.getLast?_append_underscores _ k)
  | zero =>
    rw [Text.times, List.replicate_zero, List.append_nil, allowed] at hmem
    split at hmem
    · exact hlast _ hmem (Text.getLast?_append_underscores _ 0)
    · next hfree =>
      rw [Bool.or_eq_true, List.contains_iff_mem] at hfree
      exact hfree (hb _ hmem)

theorem isKeyword_name : TypeHint.isKeyword (rules.name taken key) = false := by
  have hlast : ∀ w ∈ TypeHint.keywords, w.getLast? ≠ some ('_' : CodePoint) := by decide
  refine Bool.eq_false_iff.2 fun h => name_not_mem (fun w hw => .inl ?_) hlast
    (List.contains_iff_mem.1 h)
  exact List.contains_iff_mem.2 hw

/-! ## Identifiers -/

/-- **A name is an identifier exactly when every word character of its key can stand in one.** What
is put in front of a stem mends its first code point and no other. -/
theorem isIdentifier_name_iff : (rules.name taken key).isIdentifier = true ↔
    ∀ c ∈ key, c.isWord = true → c.continuesIdentifier = true := by
  have hstem : (∀ c ∈ rules.stem key, c.continuesIdentifier = true) ↔
      ∀ c ∈ key, c.isWord = true → c.continuesIdentifier = true := forall_mem_stem (by decide)
  have hcases := qualified_cases rules (rules.stem key)
  obtain ⟨k, hk⟩ := name_eq rules taken key
  rw [hk, ← hstem]
  constructor
  · intro h c hc
    refine Text.continues_of_isIdentifier h c (List.mem_append_left _ ?_)
    rcases hcases with ⟨hq, -⟩ | hq <;> rw [hq]
    · exact hc
    · exact List.mem_append_right _ hc
  · intro h
    refine Text.isIdentifier_append ?_ fun c hc => ?_
    · rcases hcases with ⟨hq, hid⟩ | hq <;> rw [hq]
      · exact hid
      · exact Text.isIdentifier_append (by decide) h
    · rw [Text.mem_times hc]
      decide

/-- **The attribute name of a key.** Whatever the rules and the taken names, the name is that of the
key with as few underscores behind it as make it free, it is not taken and no keyword, and it is an
identifier unless a word character of the key, such as a superscript, cannot stand in one. -/
theorem name_fresh_word (rules : AttributeRules) (taken : List Text) (key : Text) :
    let start := rules.allowed (rules.qualified (rules.stem key))
    (∃ k ≤ taken.length, rules.name taken key = start ++ Text.times k '_' ∧
      ∀ j < k, start ++ Text.times j '_' ∈ taken) ∧
    rules.name taken key ∉ taken ∧ TypeHint.isKeyword (rules.name taken key) = false ∧
    ((rules.name taken key).isIdentifier = true ↔
      ∀ c ∈ key, c.isWord = true → c.continuesIdentifier = true) :=
  ⟨freshen_steps _ _, name_not_mem_taken, isKeyword_name, isIdentifier_name_iff⟩

/-- A superscript is a word character that cannot stand in an identifier. -/
theorem not_isIdentifier_superscript :
    ¬ ((Dataclass.rules ⟨"Root", .record [], []⟩).name [] "x\u00b2").isIdentifier = true := by
  intro h
  have hmem : CodePoint.ofChar '\u00b2' ∈ Text.ofString "x\u00b2" := by decide
  exact absurd (isIdentifier_name_iff.1 h _ hmem (by decide)) (by decide)

/-! ## Names of several keys -/

variable {keys : List Text}

theorem length_names (rules : AttributeRules) (taken keys : List Text) :
    (rules.names taken keys).1.length = keys.length := by
  induction keys generalizing taken with
  | nil => rfl
  | cons key rest ih => exact congrArg (· + 1) (ih _)

/-- Every name in a row is the name of a key. -/
theorem exists_name_of_mem {n : Text} (h : n ∈ (rules.names taken keys).1) :
    ∃ taken' key, n = rules.name taken' key := by
  induction keys generalizing taken with
  | nil => cases h
  | cons key rest ih =>
    rcases List.mem_cons.1 h with rfl | h
    · exact ⟨taken, key, rfl⟩
    · exact ih h

theorem not_mem_taken_of_mem_names {n : Text} (h : n ∈ (rules.names taken keys).1) :
    n ∉ taken := by
  induction keys generalizing taken with
  | nil => cases h
  | cons key rest ih =>
    rcases List.mem_cons.1 h with rfl | h
    · exact name_not_mem_taken
    · exact fun hn => ih h (List.mem_cons_of_mem _ hn)

/-- **The names of several keys differ.** -/
theorem nodup_names (rules : AttributeRules) (taken keys : List Text) :
    (rules.names taken keys).1.Nodup := by
  induction keys generalizing taken with
  | nil => exact List.nodup_nil
  | cons key rest ih =>
    exact List.nodup_cons.2 ⟨fun h => not_mem_taken_of_mem_names h List.mem_cons_self, ih _⟩

theorem names_attributes (rules : AttributeRules) (fields : List Field) :
    (rules.attributes fields).map (·.1) = (rules.names [] (fields.map (·.key))).1 :=
  List.map_fst_zip (by simp [length_names])

/-- There is one attribute for each field, in their order. -/
theorem fields_attributes (rules : AttributeRules) (fields : List Field) :
    (rules.attributes fields).map (·.2) = fields :=
  List.map_snd_zip (by simp [length_names])

/-- Every attribute has the name of a key. -/
theorem exists_name_of_mem_attributes {fields : List Field} {a : Text × Field}
    (h : a ∈ rules.attributes fields) : ∃ taken key, a.1 = rules.name taken key := by
  have hname : a.1 ∈ (rules.names [] (fields.map (·.key))).1 := by
    rw [← names_attributes]
    exact List.mem_map_of_mem h
  exact exists_name_of_mem hname

end AttributeRules

end TypeSketch
