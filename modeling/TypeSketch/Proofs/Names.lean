import Mathlib.Data.List.Lex
import Mathlib.Data.List.Nodup
import Mathlib.Data.Nat.Basic
import TypeSketch.Shape

/-!
# Names in order and sets of names

* `Entries.get?_eq_some_iff`: with distinct names a look-up finds exactly the entries there are.
* `eraseDups_flatMap`: dropping repeated names early, in every part of a list, leaves the same
  names in the same order as dropping them once at the end.
* `Labels.ofNames?_congr`: **a set of names does not depend on how it was listed.**
-/

namespace TypeSketch

namespace Entries

variable {α : Type} {es : Entries α} {name : Text} {a : α}

@[simp] theorem get?_nil : get? ([] : Entries α) name = none := rfl

theorem get?_cons (e : Text × α) :
    get? (e :: es) name = if e.1 = name then some e.2 else get? es name := by
  by_cases h : e.1 = name <;> simp [get?, h]

theorem mem_of_get? (h : get? es name = some a) : (name, a) ∈ es := by
  induction es with
  | nil => cases h
  | cons e rest ih =>
    rw [get?_cons] at h
    split at h
    · next he =>
      cases h
      rw [← he]
      exact List.mem_cons_self
    · exact List.mem_cons_of_mem _ (ih h)

theorem get?_eq_none_iff : get? es name = none ↔ name ∉ names es := by
  induction es with
  | nil => simp [names]
  | cons e rest ih =>
    rw [get?_cons]
    by_cases he : e.1 = name
    · simp [names, he]
    · have he' : name ≠ e.1 := fun h => he h.symm
      simp only [he, if_false, ih, names, List.map_cons, List.mem_cons, he', false_or]

theorem exists_get?_of_mem (h : name ∈ names es) : ∃ a, get? es name = some a := by
  cases hg : get? es name with
  | none => exact absurd h (get?_eq_none_iff.1 hg)
  | some a => exact ⟨a, rfl⟩

theorem mem_names_of_get? (h : get? es name = some a) : name ∈ names es :=
  List.mem_map_of_mem (mem_of_get? h)

/-- **A look-up finds the one entry of its name.** -/
theorem get?_eq_some_iff (hd : (names es).Nodup) : get? es name = some a ↔ (name, a) ∈ es := by
  refine ⟨mem_of_get?, fun h => ?_⟩
  induction es with
  | nil => cases h
  | cons e rest ih =>
    rw [names, List.map_cons, List.nodup_cons] at hd
    rw [get?_cons]
    rcases List.mem_cons.1 h with rfl | h
    · exact if_pos rfl
    · have hne : e.1 ≠ name := fun he => hd.1 (he ▸ List.mem_map_of_mem h)
      rw [if_neg hne]
      exact ih hd.2 h

theorem has_iff : has es name = true ↔ name ∈ names es := by
  simp only [has, names, List.any_eq_true, decide_eq_true_eq, List.mem_map]

/-- What a table of names holds at a name. -/
theorem get?_table {ts : List Text} {f : Text → α} :
    get? (ts.map fun t => (t, f t)) name = if name ∈ ts then some (f name) else none := by
  induction ts with
  | nil => rfl
  | cons t ts ih =>
    rw [List.map_cons, get?_cons, ih]
    by_cases h : t = name
    · simp [h]
    · have h' : name ≠ t := fun e => h e.symm
      simp [h, h']

@[simp] theorem names_table {ts : List Text} {f : Text → α} :
    names (ts.map fun t => (t, f t)) = ts := by
  simp [names, Function.comp_def]

section Map

variable {β : Type} {f : α → β}

theorem get?_map : get? (es.map fun e => (e.1, f e.2)) name = (get? es name).map f := by
  induction es with
  | nil => rfl
  | cons e rest ih =>
    rw [List.map_cons, get?_cons, get?_cons, ih]
    by_cases h : e.1 = name <;> simp [h]

@[simp] theorem names_map : names (es.map fun e => (e.1, f e.2)) = names es := by
  simp [names, Function.comp_def]

end Map

end Entries

section Repeats

variable {α β : Type} [BEq β] [LawfulBEq β]

theorem nodup_eraseDups (l : List β) : l.eraseDups.Nodup := by
  cases l with
  | nil => exact List.nodup_nil
  | cons a rest =>
    rw [List.eraseDups_cons, List.nodup_cons]
    exact ⟨by simp, nodup_eraseDups (rest.filter fun b => !b == a)⟩
termination_by l.length
decreasing_by exact Nat.lt_succ_of_le (List.length_filter_le _ _)

theorem eraseDups_of_nodup {l : List β} (h : l.Nodup) : l.eraseDups = l := by
  induction l with
  | nil => rfl
  | cons a rest ih =>
    rw [List.nodup_cons] at h
    have hkeep : rest.filter (fun b => !b == a) = rest := by
      rw [List.filter_eq_self]
      intro b hb
      have : b ≠ a := fun e => h.1 (e ▸ hb)
      simp [this]
    rw [List.eraseDups_cons, hkeep, ih h.2]

theorem eraseDups_filter (p : β → Bool) (l : List β) :
    (l.filter p).eraseDups = l.eraseDups.filter p := by
  cases l with
  | nil => rfl
  | cons a rest =>
    have ih := eraseDups_filter p (rest.filter fun b => !b == a)
    rw [List.filter_filter] at ih
    rw [List.eraseDups_cons, List.filter_cons, List.filter_cons]
    by_cases ha : p a = true
    · rw [if_pos ha, if_pos ha, List.eraseDups_cons, List.filter_filter, ← ih]
      simp only [Bool.and_comm]
    · -- the names dropped with the head fail the test as it does
      rw [if_neg ha, if_neg ha, ← ih]
      congr 1
      refine List.filter_congr fun b _ => ?_
      by_cases hb : b = a
      · subst hb; simp [ha]
      · simp [hb]
termination_by l.length
decreasing_by exact Nat.lt_succ_of_le (List.length_filter_le _ _)

/-- Dropping repeats early, in every part of a list, changes nothing at the end. -/
theorem eraseDups_flatMap (f : α → List β) (l : List α) :
    (l.flatMap fun x => (f x).eraseDups).eraseDups = (l.flatMap f).eraseDups := by
  induction l with
  | nil => rfl
  | cons x rest ih =>
    have hgone : ∀ m : List β, m.removeAll (f x).eraseDups = m.removeAll (f x) := by
      intro m
      refine List.filter_congr fun b _ => ?_
      by_cases hb : b ∈ f x <;> simp [hb]
    rw [List.flatMap_cons, List.flatMap_cons, List.eraseDups_append, List.eraseDups_append, hgone,
      eraseDups_of_nodup (nodup_eraseDups _)]
    unfold List.removeAll
    rw [eraseDups_filter, eraseDups_filter, ih]

end Repeats

/-! ## Sets of names -/

theorem CodePoint.val_injective : Function.Injective CodePoint.val := by
  rintro ⟨m, hm⟩ ⟨n, hn⟩ h
  cases h
  rfl

/-- The order of texts is the order of their code point numbers. -/
theorem Text.lt_iff {s t : Text} : Text.lt s t = true ↔ s.map (·.val) < t.map (·.val) := by
  induction s generalizing t with
  | nil => cases t <;> simp [Text.lt]
  | cons a s ih =>
    cases t with
    | nil => simp [Text.lt]
    | cons b t =>
      have hab : a = b ↔ a.val = b.val := CodePoint.val_injective.eq_iff.symm
      simp only [Text.lt, Bool.or_eq_true, Bool.and_eq_true, decide_eq_true_eq, ih, List.map_cons,
        List.cons_lt_cons_iff, hab]

namespace Labels

/-- A list of names in increasing order. -/
structure Increasing (labels : List Label) : Prop where
  named : ∀ a ∈ labels, ∃ t, a = .name t
  sorted : labels.Pairwise fun a b => a.lt b = true

theorem Increasing.tail {a : Label} {rest : List Label} (h : Increasing (a :: rest)) :
    Increasing rest :=
  ⟨fun b hb => h.named b (List.mem_cons_of_mem _ hb), (List.pairwise_cons.1 h.sorted).2⟩

theorem lt_name {s t : Text} :
    Label.lt (.name s) (.name t) = true ↔ s.map (·.val) < t.map (·.val) := Text.lt_iff

/-- Putting one more name into an increasing list keeps the order. -/
theorem Increasing.insert {labels : List Label} (h : Increasing labels) (t : Text) :
    Increasing (Labels.insert (.name t) labels) := by
  refine ⟨fun a ha => ?_, ?_⟩
  · rcases mem_insert.1 ha with rfl | ha
    · exact ⟨t, rfl⟩
    · exact h.named a ha
  induction labels with
  | nil => simp [Labels.insert]
  | cons b rest ih =>
    obtain ⟨u, rfl⟩ := h.named b List.mem_cons_self
    have hb := (List.pairwise_cons.1 h.sorted).1
    rw [Labels.insert]
    by_cases he : Label.name t = .name u
    · rw [if_pos he]
      exact h.sorted
    rw [if_neg he]
    by_cases hlt : Label.lt (.name t) (.name u) = true
    · -- in front of the head, the new name is in front of all that follow it
      rw [if_pos hlt, List.pairwise_cons]
      refine ⟨fun c hc => ?_, h.sorted⟩
      rcases List.mem_cons.1 hc with rfl | hc
      · exact hlt
      · obtain ⟨v, rfl⟩ := h.tail.named c hc
        have := hb _ hc
        rw [lt_name] at hlt this ⊢
        exact hlt.trans this
    · -- the name goes further back, and the head, which is another, stays the least
      rw [if_neg hlt, List.pairwise_cons]
      refine ⟨fun c hc => ?_, ih h.tail⟩
      rcases mem_insert.1 hc with rfl | hc
      · rw [lt_name] at hlt ⊢
        refine lt_of_le_of_ne (not_lt.1 hlt) fun e => he ?_
        rw [CodePoint.val_injective.list_map e]
      · exact hb c hc

theorem increasing_ofList (names : List Text) : Increasing (ofList (names.map .name)) := by
  induction names with
  | nil => exact ⟨by simp [ofList], List.Pairwise.nil⟩
  | cons t rest ih => exact ih.insert t

/-- Increasing lists with the same members are equal. -/
theorem Increasing.eq_of_mem_iff {l m : List Label} (hl : Increasing l) (hm : Increasing m)
    (h : ∀ a, a ∈ l ↔ a ∈ m) : l = m := by
  have hirr : ∀ {k : List Label}, Increasing k → k.Nodup := by
    intro k hk
    refine hk.sorted.imp_of_mem fun {a b} ha _ hab e => ?_
    obtain ⟨t, rfl⟩ := hk.named a ha
    rw [← e, lt_name] at hab
    exact lt_irrefl _ hab
  have hperm : l.Perm m := (List.perm_ext_iff_of_nodup (hirr hl) (hirr hm)).2 h
  refine hperm.eq_of_pairwise (fun a b ha hb hab hba => ?_) hl.sorted hm.sorted
  obtain ⟨s, rfl⟩ := hl.named a ha
  obtain ⟨t, rfl⟩ := hm.named b hb
  rw [lt_name] at hab hba
  exact absurd (hab.trans hba) (lt_irrefl _)

theorem ofNames?_nil : ofNames? [] = none := rfl

theorem ofNames?_of_ne_nil {names : List Text} (h : names ≠ []) :
    ofNames? names = some (ofList (names.map .name)) := by
  cases names with
  | nil => exact absurd rfl h
  | cons t rest => rfl

theorem mem_ofNames? {names : List Text} {t : Text} :
    ((ofNames? names).getD []).contains (.name t) = true ↔ t ∈ names := by
  by_cases h : names = []
  · subst h
    simp [ofNames?, ofList?]
  · simp [ofNames?_of_ne_nil h, mem_ofList]

/-- **A set of names does not depend on how it was listed.** -/
theorem ofNames?_congr {ns ms : List Text} (h : ∀ t, t ∈ ns ↔ t ∈ ms) :
    ofNames? ns = ofNames? ms := by
  by_cases hns : ns = []
  · subst hns
    have hms : ms = [] := List.eq_nil_iff_forall_not_mem.2 fun t ht => by simpa using (h t).2 ht
    rw [hms]
  · obtain ⟨t, ht⟩ := List.exists_mem_of_ne_nil ns hns
    have hms : ms ≠ [] := List.ne_nil_of_mem ((h t).1 ht)
    rw [ofNames?_of_ne_nil hns, ofNames?_of_ne_nil hms]
    refine congrArg some ((increasing_ofList ns).eq_of_mem_iff (increasing_ofList ms) fun a => ?_)
    simp only [mem_ofList, List.mem_map, h]

end Labels

end TypeSketch
