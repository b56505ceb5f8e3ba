import Mathlib.Data.List.Infix
import TypeSketch.Proofs.Listing

/-!
# Names handed out so far

A declaration keeps the names that were handed out by the time it was complete.

* `NumberedIn`: a declaration whose number is in a range, like what was handed out with it.
* `numberedIn_declaredFrom`: the records of a shape are declared within the range of their numbers.
* `pairwise_issued`: **the names of all declarations in front of one had been handed out by then.**
* `HandedOut`, `handedOut_declarations`: **what had been handed out for a declaration**: the first
  of all names, up to those it refers to.
* `lacks_declarations`: **what is not in the root is in no name**, but for the mark and the number
  of nested types.
-/

namespace TypeSketch.Shape

variable {s : Shape} {useOptional : Bool} {root : Text} {i j : Nat} {d e : Declaration}

/-! ## Numbers of declarations -/

theorem nestedName_mem_nestedNames {k count : Nat} (h : k < count) :
    nestedName root k ∈ nestedNames root count :=
  List.mem_map_of_mem (List.mem_range.2 h)

theorem nestedNames_mono {m n : Nat} (h : m ≤ n) : nestedNames root m <+: nestedNames root n := by
  obtain ⟨k, rfl⟩ := Nat.exists_eq_add_of_le h
  rw [nestedNames, nestedNames, List.range_add, List.map_append]
  exact List.prefix_append _ _

/-- The number of a declaration is not below `i`, and no more than `j` names were handed out when it
was complete, its own among them. -/
def NumberedIn (root : Text) (i j : Nat) (d : Declaration) : Prop :=
  ∃ k m, d.name = nestedName root k ∧ d.issued = nestedNames root m ∧ i ≤ k ∧ k < m ∧ m ≤ j

theorem NumberedIn.mono {i' j' : Nat} (h : NumberedIn root i j d) (hi : i' ≤ i) (hj : j ≤ j') :
    NumberedIn root i' j' d := by
  obtain ⟨k, m, hname, hissued, hik, hkm, hmj⟩ := h
  exact ⟨k, m, hname, hissued, hi.trans hik, hkm, hmj.trans hj⟩

/-- The name of a declaration is among those handed out up to the end of a range. -/
theorem NumberedIn.mem_nestedNames (h : NumberedIn root i j d) : d.name ∈ nestedNames root j := by
  obtain ⟨k, m, hname, -, -, hkm, hmj⟩ := h
  rw [hname]
  exact nestedName_mem_nestedNames (hkm.trans_le hmj)

/-- A name handed out in a range is among the names of a declaration behind it. -/
theorem NumberedIn.mem_issued {j' : Nat} (he : NumberedIn root i j e)
    (hd : NumberedIn root j j' d) : e.name ∈ d.issued := by
  obtain ⟨k, m, -, hissued, hjk, hkm, -⟩ := hd
  rw [hissued]
  exact (nestedNames_mono (hjk.trans hkm.le)).subset he.mem_nestedNames

theorem numberedIn_declaredFromFields {fs : List (Text × Shape)}
    (h : ∀ f ∈ fs, ∀ i, ∀ d ∈ declaredFrom useOptional root i f.2,
      NumberedIn root i (i + f.2.records.length) d) (i : Nat) :
    ∀ d ∈ declaredFromFields useOptional root i fs,
      NumberedIn root i (i + (recordsOfFields fs).length) d := by
  induction fs generalizing i with
  | nil => nofun
  | cons f rest ih =>
    rw [List.forall_mem_cons] at h
    rw [declaredFromFields, recordsOfFields, List.length_append, ← Nat.add_assoc]
    refine List.forall_mem_append.2 ⟨fun d hd => (h.1 i d hd).mono le_rfl (Nat.le_add_right _ _),
      fun d hd => (ih h.2 _ d hd).mono (Nat.le_add_right _ _) le_rfl⟩

/-- **The records of a shape are declared within the range of their numbers.** -/
theorem numberedIn_declaredFrom (s : Shape) (i : Nat) :
    ∀ d ∈ declaredFrom useOptional root i s, NumberedIn root i (i + s.records.length) d := by
  induction s using records_induction generalizing i with
  | bare s hb => rw [hb.declaredFrom]; nofun
  | array s t hk hi ih => rw [declaredFrom_of_array hk hi, records_of_array hk hi]; exact ih i
  | record s hr ih =>
    rw [declaredFrom_of_record hr, records_of_record hr, List.length_cons]
    refine List.forall_mem_append.2 ⟨fun d hd => ?_, List.forall_mem_singleton.2 ?_⟩
    · exact (numberedIn_declaredFromFields ih (i + 1) d hd).mono (Nat.le_succ i) (by omega)
    · exact ⟨i, _, rfl, rfl, le_rfl, by omega, by omega⟩

/-! ## Names of earlier declarations -/

theorem pairwise_declaredFromFields {fs : List (Text × Shape)}
    (h : ∀ f ∈ fs, ∀ i, (declaredFrom useOptional root i f.2).Pairwise fun e d => e.name ∈ d.issued)
    (i : Nat) :
    (declaredFromFields useOptional root i fs).Pairwise fun e d => e.name ∈ d.issued := by
  induction fs generalizing i with
  | nil => exact .nil
  | cons f rest ih =>
    rw [List.forall_mem_cons] at h
    rw [declaredFromFields, List.pairwise_append]
    refine ⟨h.1 i, ih h.2 _, fun e he d hd => ?_⟩
    exact (numberedIn_declaredFrom f.2 i e he).mem_issued
      (numberedIn_declaredFromFields (fun g _ => numberedIn_declaredFrom g.2) _ d hd)

theorem pairwise_declaredFrom (s : Shape) (i : Nat) :
    (declaredFrom useOptional root i s).Pairwise fun e d => e.name ∈ d.issued := by
  induction s using records_induction generalizing i with
  | bare s hb => rw [hb.declaredFrom]; exact .nil
  | array s t hk hi ih => rw [declaredFrom_of_array hk hi]; exact ih i
  | record s hr ih =>
    rw [declaredFrom_of_record hr, List.pairwise_append]
    refine ⟨pairwise_declaredFromFields ih (i + 1), List.pairwise_singleton _ _,
      fun e he d hd => ?_⟩
    obtain rfl := List.mem_singleton.1 hd
    -- the record was complete when all names below it had been handed out
    have hbelow := numberedIn_declaredFromFields (fun g _ => numberedIn_declaredFrom g.2) _ e he
    exact hbelow.mem_nestedNames

/-- Every record below a shape is declared within the range of the numbers below it. -/
theorem numberedIn_declaredBelow (s : Shape) :
    ∀ d ∈ declaredBelow useOptional root s, NumberedIn root 0 s.recordsBelow.length d := by
  rw [declaredBelow, recordsBelow]
  split
  · simpa using numberedIn_declaredFromFields (fun g _ => numberedIn_declaredFrom g.2) 0
  · simpa using numberedIn_declaredFrom s 0

/-- **The names of all declarations in front of one had been handed out by then.** -/
theorem pairwise_issued (useOptional : Bool) (root : Text) (s : Shape) :
    (s.declarations useOptional root).Pairwise fun e d => e.name ∈ d.issued := by
  rw [declarations_eq, List.pairwise_append]
  refine ⟨?_, List.pairwise_singleton _ _, fun e he d hd => ?_⟩
  · rw [declaredBelow]
    split
    · exact pairwise_declaredFromFields (fun f _ => pairwise_declaredFrom f.2) 0
    · exact pairwise_declaredFrom s 0
  · obtain rfl := List.mem_singleton.1 hd
    exact (numberedIn_declaredBelow s e he).mem_nestedNames

/-! ## What had been handed out -/

/-- **What had been handed out by the time a declaration was complete**, given all names in the
order in which they were handed out, and the declarations in front of it. -/
structure HandedOut (root : Text) (names : List Text) (before : List Declaration)
    (d : Declaration) : Prop where
  /-- They are the first of all names. -/
  first : d.issued <+: names
  /-- Its own name is among them, unless it is that of the root. -/
  own : d.name = root ∨ d.name ∈ d.issued
  earlier : ∀ e ∈ before, e.name ∈ d.issued
  used : ∀ n ∈ d.uses, n ∈ d.issued

/-- **Every declaration of a shape has been handed out** its name and those it refers to. -/
theorem handedOut_declarations {before after : List Declaration}
    (h : s.declarations useOptional root = before ++ d :: after) :
    HandedOut root (drafted useOptional root s).namer.issued before d := by
  have hd : d ∈ s.declarations useOptional root := h ▸ List.mem_append_right _ List.mem_cons_self
  have hearlier : ∀ e ∈ before, e.name ∈ d.issued := by
    have hpairs := pairwise_issued useOptional root s
    rw [h, List.pairwise_append] at hpairs
    exact fun e he => hpairs.2.2 e he d List.mem_cons_self
  have hnumbers : d.issued <+: nestedNames root s.recordsBelow.length ∧
      (d.name = root ∨ d.name ∈ d.issued) := by
    rw [declarations_eq] at hd
    rcases List.mem_append.1 hd with hd | hd
    · obtain ⟨k, m, hname, hissued, -, hkm, hm⟩ := numberedIn_declaredBelow s d hd
      rw [hname, hissued]
      exact ⟨nestedNames_mono hm, .inr (nestedName_mem_nestedNames hkm)⟩
    · obtain rfl := List.mem_singleton.1 hd
      exact ⟨List.prefix_rfl, .inl rfl⟩
  refine ⟨?_, hnumbers.2, hearlier, fun n hn => ?_⟩
  · rw [drafted_eq]
    exact hnumbers.1
  · obtain ⟨e, he, rfl⟩ :=
      List.mem_map.1 (ordered_declarations useOptional root s before d after h n hn)
    exact hearlier e he

/-- Only names of nested types are handed out. -/
theorem HandedOut.exists_nestedName {before : List Declaration}
    (h : HandedOut root (drafted useOptional root s).namer.issued before d) {n : Text}
    (hn : n ∈ d.issued) : ∃ i, n = nestedName root i := by
  have hmem := h.first.subset hn
  rw [drafted_eq] at hmem
  obtain ⟨i, -, rfl⟩ := List.mem_map.1 hmem
  exact ⟨i, rfl⟩

/-! ## Code points of names -/

/-- **A code point that is in no name of a declaration**, neither its own nor one it refers to. -/
structure Lacks (c : CodePoint) (d : Declaration) : Prop where
  name : c ∉ d.name
  uses : ∀ n ∈ d.uses, c ∉ n

theorem not_mem_nestedName {c : CodePoint} (hroot : c ∉ root) (hmark : c ∉ ("Nested" : Text))
    (hdigit : c.isDigit = false) (i : Nat) : c ∉ nestedName root i := by
  obtain ⟨tail, htail, hdigits⟩ := nestedName_eq root i
  rw [htail, List.mem_append, List.mem_append]
  rintro ((hmem | hmem) | hmem)
  · exact hroot hmem
  · exact hmark hmem
  · rw [hdigits c hmem] at hdigit
    cases hdigit

/-- **A code point that is not in the root is in no declared name**, unless it is one of those that
nested types are numbered with. -/
theorem lacks_declarations {c : CodePoint} (hroot : c ∉ root) (hmark : c ∉ ("Nested" : Text))
    (hdigit : c.isDigit = false) (hd : d ∈ s.declarations useOptional root) : Lacks c d := by
  obtain ⟨before, after, hsplit⟩ := List.append_of_mem hd
  have hout := handedOut_declarations hsplit
  have hissued : ∀ n ∈ d.issued, c ∉ n := by
    intro n hn
    obtain ⟨i, rfl⟩ := hout.exists_nestedName hn
    exact not_mem_nestedName hroot hmark hdigit i
  refine ⟨?_, fun n hn => hissued n (hout.used n hn)⟩
  rcases hout.own with hname | hname
  · rwa [hname]
  · exact hissued _ hname

end TypeSketch.Shape
