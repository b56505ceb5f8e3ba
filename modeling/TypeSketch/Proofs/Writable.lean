import TypeSketch.Proofs.Literal
import TypeSketch.Proofs.Spelling

/-!
# Declarations that can be told from their text

* `Writable`: a declaration with a plain name, whose types refer to nested types and whose keys are
  whole.
* `writable_declarations`: **the declarations of a shape are such** under a plain name for the root,
  if its keys are whole.
-/

namespace TypeSketch

/-- A field whose key and type can be told from their text. -/
structure Field.Writable (f : Field) : Prop where
  key : f.key.IsWhole
  type : f.type.NamesNested

/-- **A declaration that can be told from its text**: its name is plain, its types refer to nested
types, and a record has a field. -/
structure Declaration.Writable (d : Declaration) : Prop where
  name : TypeScript.isPlainName d.name = true
  type : ∀ t, d.body = .alias t → t.NamesNested
  fields : ∀ fields, d.body = .record fields → fields ≠ [] ∧ ∀ f ∈ fields, f.Writable

theorem Declaration.Writable.not_mem_name {d : Declaration} (h : d.Writable) {c : CodePoint}
    (hc : TypeScript.continuesName c = false) : c ∉ d.name :=
  TypeScript.not_mem_of_isPlainName h.name hc

/-! ## The declarations of a shape -/

namespace Shape

variable {s t : Shape} {root : Text} {i : Nat}

/-- The types of a shape refer to nested types. -/
theorem namesNested_typeFrom (hroot : TypeScript.isPlainName root = true) (s : Shape) (i : Nat) :
    (typeFrom (nestedName root) i s).NamesNested := by
  intro n hn
  have hname : n ∈ (declaredFrom true root i s).map (·.name) := names_typeFrom s i n hn
  obtain ⟨d, hd, rfl⟩ := List.mem_map.1 hname
  obtain ⟨r, -, rfl⟩ := List.mem_map.1 ((declaredFrom_perm s i).mem_iff.1 hd)
  exact isNestedName_nestedName hroot r.2

/-- The fields of a record can be told from their text, if its keys can. -/
theorem writable_recordFields (hroot : TypeScript.isPlainName root = true)
    (hk : ∀ key ∈ Entries.names s.fields, key.IsWhole) :
    ∀ f ∈ recordFields true (nestedName root) i s, f.Writable := by
  intro f hf
  obtain ⟨before, g, after, hfields, rfl⟩ := mem_fieldsFrom hf
  refine ⟨hk g.1 ?_, namesNested_typeFrom hroot g.2 _⟩
  rw [hfields]
  exact List.mem_map_of_mem (List.mem_append_right _ List.mem_cons_self)

theorem recordFields_ne_nil (hr : s.isRecord = true) (name : Nat → Text) :
    recordFields true name i s ≠ [] := by
  have hne := (isRecord_iff.1 hr).2
  rw [recordFields]
  cases hf : s.fields with
  | nil => exact absurd hf hne
  | cons f rest => exact List.cons_ne_nil _ _

theorem isRecord_of_mem_recordsOfFields {fs : List (Text × Shape)}
    (h : ∀ f ∈ fs, ∀ r ∈ f.2.records, r.isRecord = true) :
    ∀ r ∈ recordsOfFields fs, r.isRecord = true := by
  induction fs with
  | nil => intro r hr; cases hr
  | cons f rest ih =>
    rw [List.forall_mem_cons] at h
    exact List.forall_mem_append.2 ⟨h.1, ih h.2⟩

/-- The records of a shape are records. -/
theorem isRecord_of_mem_records (s : Shape) : ∀ r ∈ s.records, r.isRecord = true := by
  induction s using records_induction with
  | bare s hb =>
    rw [hb.records]
    intro r hr
    cases hr
  | array s t hk hi ih => rwa [records_of_array hk hi]
  | record s hr ih =>
    rw [records_of_record hr]
    exact List.forall_mem_cons.2 ⟨hr, isRecord_of_mem_recordsOfFields ih⟩

/-- **The declarations of a shape can be told from their text**, if the name of the root is plain
and the keys of all records are whole. -/
theorem writable_declarations (hroot : TypeScript.isPlainName root = true)
    (hk : ∀ r ∈ s.records, ∀ key ∈ Entries.names r.fields, key.IsWhole) :
    ∀ d ∈ s.declarations true root, d.Writable := by
  rw [declarations_eq]
  refine List.forall_mem_append.2 ⟨fun d hd => ?_, List.forall_mem_singleton.2 ?_⟩
  · obtain ⟨⟨r, k⟩, hr, rfl⟩ := List.mem_map.1 ((declaredBelow_perm s).mem_iff.1 hd)
    have hmem : r ∈ s.records := by
      rw [records_eq]
      exact List.mem_append_right _ (List.fst_mem_of_mem_zipIdx hr)
    have hrec := isRecord_of_mem_records s r hmem
    refine ⟨(isNestedName_nestedName hroot k).plain, fun _ => nofun, fun fields hf => ?_⟩
    cases hf
    exact ⟨recordFields_ne_nil hrec _, writable_recordFields hroot (hk r hmem)⟩
  · refine ⟨hroot, fun t ht => ?_, fun fields hf => ?_⟩
    · simp only [rootBody] at ht
      split at ht
      · cases ht
      · cases ht
        exact namesNested_typeFrom hroot s 0
    · simp only [rootBody] at hf
      split at hf
      · next hr =>
        cases hf
        have hmem : s ∈ s.records := by
          rw [records_of_record hr]
          exact List.mem_cons_self
        exact ⟨recordFields_ne_nil hr _, writable_recordFields hroot (hk s hmem)⟩
      · cases hf

/-- The keys of the fields are keys of records. -/
theorem keys_declarations {useOptional : Bool} {d : Declaration}
    (hd : d ∈ s.declarations useOptional root) :
    ∀ f ∈ d.fields, ∃ r ∈ s.records, f.key ∈ Entries.names r.fields := by
  have hkeys : ∀ {i : Nat} {r : Shape} {f : Field},
      f ∈ recordFields useOptional (nestedName root) i r → f.key ∈ Entries.names r.fields := by
    intro i r f hf
    rw [← keys_fieldsFrom]
    exact List.mem_map_of_mem hf
  intro f hf
  rw [declarations_eq] at hd
  rcases List.mem_append.1 hd with hd | hd
  · obtain ⟨⟨r, k⟩, hr, rfl⟩ := List.mem_map.1 ((declaredBelow_perm s).mem_iff.1 hd)
    refine ⟨r, ?_, hkeys hf⟩
    rw [records_eq]
    exact List.mem_append_right _ (List.fst_mem_of_mem_zipIdx hr)
  · obtain rfl := List.mem_singleton.1 hd
    rw [Declaration.fields, rootBody] at hf
    by_cases hr : s.isRecord = true
    · simp only [if_pos hr] at hf
      refine ⟨s, ?_, hkeys hf⟩
      rw [records_of_record hr]
      exact List.mem_cons_self
    · simp only [if_neg hr] at hf
      cases hf

theorem declarations_ne_nil (s : Shape) (useOptional : Bool) (root : Text) :
    s.declarations useOptional root ≠ [] := by
  rw [declarations_eq]
  exact List.append_ne_nil_of_right_ne_nil _ (List.cons_ne_nil _ _)

end Shape

end TypeSketch
