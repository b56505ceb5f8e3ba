import TypeSketch.Proofs.Interface.Reading
import TypeSketch.Proofs.Uniform

/-!
# Samples are members of what is written for them

* `field_of_property`: what is known of the property that a field shows.
* `member_of_record`: objects are members of the interface of their shape, if their members are.
* `member_typeFrom`: **values are members of the type of their shape.**
* `member_content`: **a sample is a member of the written root type**, unless it is a null where
  objects with properties were seen besides.
-/

namespace TypeSketch

namespace Interface

open Shape (merge of typeFrom recordFields fieldsFrom recordsOfFields Declared Describes Step)

variable {ds : List Declaration} {root name : Text} {s : Shape} {seen : List Value} {i : Nat}
  {m : Module} {v : Value}

/-- A value has a type or null if it has the type, or is a null and null was seen. -/
theorem member_withNullable {t : TypeExpr} {nullable : Bool}
    (hn : v.isNull = true → nullable = true) (h : v.isNull = false → Member m (.of t) v) :
    Member m (.of (t.withNullable nullable)) v := by
  cases hv : v.isNull with
  | false =>
    cases nullable
    · exact h hv
    · exact .left (h hv)
  | true =>
    obtain rfl := hn hv
    obtain rfl := Value.eq_null_of_isNull hv
    exact .right .null

/-- Values are members of the type of their shape when the declarations of its records are given. -/
def Holds (ds : List Declaration) (root : Text) (s : Shape) : Prop :=
  ∀ {seen : List Value} {i : Nat}, Value.Uniform seen → s = merge (seen.map of) →
    Declared true root (· ∈ ds) i s.records →
    ∀ v ∈ seen, Member (.of ds) (.of (typeFrom (nestedName root) i s)) v

theorem isNull_of_merge_null (hj : ∀ v ∈ seen, v.IsJson) (h : (merge (seen.map of)).kind = .null) :
    ∀ v ∈ seen, v.isNull = true := by
  have hd := Shape.describes_merge hj
  generalize merge (seen.map of) = s at hd h
  cases hd with
  | null hall => exact hall
  | scalar hs => exact absurd h hs.ne_null
  | mixed | array | object => cases h

/-- What is known of the property that a field shows: its key and type, whether it may be missing,
and that its shape is the one of what was observed under the key. -/
theorem field_of_property (hj : ∀ v ∈ seen, v.IsJson) (hs : s = merge (seen.map of))
    (hbelow : Declared true root (· ∈ ds) i (recordsOfFields s.fields)) {p : Property}
    (hp : p ∈ (recordFields true (nestedName root) i s).map Property.of) :
    ∃ g ∈ s.fields, ∃ j, p.key = g.1 ∧
      p.optional = Shape.isOptional true (s.required.getD []) g.1 g.2.kind ∧
      p.type = .of (typeFrom (nestedName root) j g.2) ∧
      Declared true root (· ∈ ds) j g.2.records ∧
      Value.under seen (.property g.1) ≠ [] ∧
      g.2 = merge ((Value.under seen (.property g.1)).map of) := by
  obtain ⟨f, hf, rfl⟩ := List.mem_map.1 hp
  obtain ⟨before, g, after, hfields, rfl⟩ := Shape.mem_fieldsFrom hf
  have hg : g ∈ s.fields := hfields ▸ List.mem_append_right _ List.mem_cons_self
  rw [hfields, Shape.recordsOfFields_append, Shape.declared_append] at hbelow
  have hformed : s.Formed := hs ▸ Shape.formed_merge (Shape.formed_map_of hj)
  have hchild : s.child (.property g.1) = some g.2 :=
    (Entries.get?_eq_some_iff hformed.nodup_names).2 hg
  rw [hs, Shape.child_merge_of hj] at hchild
  exact ⟨g, hg, _, rfl, rfl, rfl, (Shape.declared_append.1 hbelow.2).1, hchild.2⟩

/-- Every member of an object is shown by a field. -/
theorem exists_property (hu : Value.Uniform seen) (hs : s = merge (seen.map of)) (hv : v ∈ seen)
    (hname : name ∈ v.memberNames) :
    ∃ p ∈ (recordFields true (nestedName root) i s).map Property.of, p.key = name := by
  have hnames : Entries.names s.fields = Value.namesSeen seen := by
    rw [hs, Shape.names_merge (Shape.formed_map_of hu.json), Shape.namesOf_map_of]
    rw [Shape.kinds_map_of]
    exact hu.sole []
  have hkeys : (recordFields true (nestedName root) i s).map (·.key) = Entries.names s.fields :=
    Shape.keys_fieldsFrom _
  have hmem : name ∈ (recordFields true (nestedName root) i s).map (·.key) := by
    rw [hkeys, hnames, Value.namesSeen, List.mem_eraseDups]
    exact List.mem_flatMap.2 ⟨v, hv, hname⟩
  obtain ⟨f, hf, hkey⟩ := List.mem_map.1 hmem
  exact ⟨.of f, List.mem_map_of_mem hf, hkey⟩

/-- **Objects are members of the interface of their shape**, if what lies below the shape holds. -/
theorem member_of_record (hu : Value.Uniform seen) (hs : s = merge (seen.map of))
    (hd : (name, Definition.of (.record (recordFields true (nestedName root) i s))) ∈ Module.of ds)
    (hbelow : Declared true root (· ∈ ds) i (recordsOfFields s.fields))
    (ih : ∀ f ∈ s.fields, Holds ds root f.2) (hv : v ∈ seen) (hk : v.kind = .object) :
    Member (.of ds) (.ref name) v := by
  cases v with
  | object members =>
    refine .interface hd (fun e he => ?_) (fun p hp hopt => ?_) fun p hp w hw => ?_
    · exact exists_property hu hs hv (List.mem_map_of_mem he)
    · obtain ⟨g, hg, j, hkey, hoptional, -, -, hne, hmerge⟩ :=
        field_of_property hu.json hs hbelow hp
      rw [hkey]
      rw [hoptional, Shape.isOptional] at hopt
      by_cases hnull : g.2.kind = .null
      · -- what was only null was there in every object
        refine hu.nulls [] g.1 hne ?_ _ hv hk
        exact isNull_of_merge_null (hu.under _).json (hmerge ▸ hnull)
      · -- what else is not optional is required
        have hreq : s.requires g.1 = true := by
          simpa [hnull, Shape.requires] using hopt
        exact hu.mem_memberNames hs hreq hv hk
    · obtain ⟨g, hg, j, hkey, -, htype, hdeclared, -, hmerge⟩ :=
        field_of_property hu.json hs hbelow hp
      rw [htype]
      refine ih g hg (hu.under (.property g.1)) hmerge hdeclared w ?_
      exact List.mem_filterMap.2 ⟨_, hv, hkey ▸ hw⟩
  | _ => cases hk

/-- Values without parts are members of the type of their kind. -/
theorem member_ofKind {k : Kind} (hk : k.isScalar = true) (hv : v.kind = k) (hj : v.IsJson) :
    Member m (.of (.ofKind k)) v := by
  subst hv
  cases hj with
  | bool b => exact .boolean b
  | number n => exact .number n
  | string t => exact .string t
  | null | array | object => cases hk

/-- Arrays are members of the type of their shape, if their elements are. -/
theorem member_of_array {items : Shape} {j : Nat} (hv : v.kind = .array)
    (h : ∀ e ∈ v.elements?.getD [], Member m (.of (typeFrom (nestedName root) j items)) e) :
    Member m (.of (if items.kind = .null then TypeExpr.anyList
      else .list (typeFrom (nestedName root) j items))) v := by
  cases v with
  | array elements =>
    split
    · exact .array fun e _ => .unknown e
    · cases elements with
      | nil => exact .array nofun
      | cons e rest => exact .array h
  | _ => cases hv

/-- **Values are members of the type of their shape.** -/
theorem member_typeFrom (ds : List Declaration) (root : Text) (s : Shape) : Holds ds root s := by
  -- on the weight of the shape; the flat rule tells what was seen
  induction hw : s.weight using Nat.strong_induction_on generalizing s with
  | _ w ih =>
    subst hw
    intro seen i hu hs hdeclared v hv
    have hd := Shape.describes_merge hu.json
    rw [← hs] at hd
    have hkind := hu.kind_eq hs hv
    have hsees : v.isNull = true → seen.any Value.isNull = true := fun hnull =>
      List.any_eq_true.2 ⟨v, hv, hnull⟩
    cases hd with
    | null hall =>
      obtain rfl := Value.eq_null_of_isNull (hall v hv)
      exact .null
    | mixed hm => exact absurd hm (hu.sole [])
    | scalar hk hscalar =>
      rw [Shape.typeFrom_of_scalar hscalar]
      refine member_withNullable hsees fun hnull => ?_
      exact member_ofKind hscalar (hkind hnull) (hu.json v hv)
    | @array items hk =>
      have hitems : (merge (seen.map of)).child .elements = some items := by
        rw [← hs]
        rfl
      obtain ⟨-, -, hmerge⟩ := (Shape.child_merge_of hu.json).1 hitems
      have hholds := ih _ (Shape.weight_items_lt rfl) items rfl (hu.under .elements) hmerge
        hdeclared
      rw [Shape.typeFrom_of_array rfl rfl]
      refine member_withNullable hsees fun hnull => member_of_array (hkind hnull) fun e he => ?_
      -- what is observed below the arrays are the elements of all of them
      cases hve : v.elements? with
      | none => rw [hve] at he; cases he
      | some elements =>
        rw [hve] at he
        exact hholds e (List.mem_flatten_of_mem (List.mem_filterMap.2 ⟨v, hv, hve⟩) he)
    | @object fields hk hn =>
      rw [Shape.typeFrom_of_object rfl]
      refine member_withNullable hsees fun hnull => ?_
      have hvk := hkind hnull
      split
      · cases v with
        | object members => exact .anyRecord members
        | _ => cases hvk
      · next hne =>
        rw [Shape.records_of_record (Shape.isRecord_iff.2 ⟨rfl, hne⟩), Shape.declared_cons]
          at hdeclared
        obtain ⟨hrecord, hbelow⟩ := hdeclared
        refine member_of_record hu hs (List.mem_map_of_mem hrecord) hbelow (fun f hf => ?_) hv hvk
        have hlt := Nat.lt_of_le_of_lt (Shape.weight_le_of_mem hf) (Shape.fieldsWeight_lt _)
        exact @ih _ hlt f.2 rfl

/-- A name that is declared once has one meaning. -/
theorem definition_unique (hn : (ds.map (·.name)).Nodup) {definition definition' : Definition}
    (h : (name, definition) ∈ Module.of ds) (h' : (name, definition') ∈ Module.of ds) :
    definition = definition' := by
  obtain ⟨d, hd, heq⟩ := List.mem_map.1 h
  obtain ⟨e, he, heq'⟩ := List.mem_map.1 h'
  obtain ⟨hname, rfl⟩ := Prod.mk.inj heq
  obtain ⟨hname', rfl⟩ := Prod.mk.inj heq'
  rw [List.inj_on_of_nodup_map hn hd he (hname.trans hname'.symm)]

/-- **A value that was seen is a member of the root type**, unless it is a null where objects with
properties were seen besides. -/
theorem member_root (hu : Value.Uniform seen) (hs : s = merge (seen.map of)) (hv : v ∈ seen) :
    Member (.of (s.declarations true root)) (.ref root) v ↔
      ¬ (v.isNull = true ∧ s.isRecord = true) := by
  have hbelow := Shape.declared_below true root s
  have hroot : (root, Definition.of (Shape.rootBody true root s)) ∈
      Module.of (s.declarations true root) := by
    rw [Shape.declarations_eq]
    exact List.mem_map_of_mem (List.mem_append_right _ List.mem_cons_self)
  rw [Shape.rootBody] at hroot
  rw [Shape.recordsBelow] at hbelow
  by_cases hr : s.isRecord = true
  · rw [if_pos hr] at hroot hbelow
    refine ⟨fun h hnull => ?_, fun h => ?_⟩
    · -- the name of the root stands for an interface, which no null belongs to
      cases h with
      | interface => cases hnull.1
      | «alias» halias =>
        cases definition_unique (Shape.nodup_names_declarations s) hroot halias
    · have hnull : v.isNull = false := Bool.eq_false_iff.2 fun hv => h ⟨hv, hr⟩
      refine member_of_record hu hs hroot hbelow (fun f _ => member_typeFrom _ _ f.2) hv ?_
      rw [hu.kind_eq hs hv hnull, (Shape.isRecord_iff.1 hr).1]
  · rw [if_neg hr] at hroot hbelow
    refine iff_of_true (.alias hroot ?_) fun h => hr h.2
    exact member_typeFrom _ root s hu hs hbelow v hv

/-- What is generated reads back as the module that was meant. -/
theorem read_generate {settings : Settings}
    (hformat : settings.format = .string Target.typeScript.name)
    (hoptional : settings.useOptional = true)
    (hroot : TypeScript.isPlainName settings.root = true)
    (hk : ∀ r ∈ s.records, ∀ key ∈ Entries.names r.fields, key.IsWhole ∧ PlainIfBare key) :
    ∃ g, generate s settings = .ok g ∧
      Module.read g.content = some (.of (s.declarations true settings.root)) := by
  refine ⟨_, Shape.generate_eq hformat s, ?_⟩
  rw [hoptional]
  refine read_content (fun d hd => ⟨?_, fun f hf => ?_⟩) (Shape.declarations_ne_nil s _ _)
  · exact Shape.writable_declarations hroot (fun r hr key hkey => (hk r hr key hkey).1) d hd
  · obtain ⟨r, hr, hkey⟩ := Shape.keys_declarations hd f hf
    exact (hk r hr _ hkey).2

/-- **Every sample is a member of the written root type**, unless it is a null where objects with
properties were seen besides. The samples are without conflicts, the name of the root is plain, and
so are the keys that are written without quotes. -/
theorem member_content {limit : Option Int} {samples : List Value} {settings : Settings}
    (hu : Value.Uniform samples) (hs : Shape.inferAll limit samples = .ok s)
    (hformat : settings.format = .string Target.typeScript.name)
    (hoptional : settings.useOptional = true) (hroot : TypeScript.isPlainName settings.root = true)
    (hk : ∀ r ∈ s.records, ∀ key ∈ Entries.names r.fields, key.IsWhole ∧ PlainIfBare key) :
    ∃ g m, generate s settings = .ok g ∧ Module.read g.content = some m ∧
      ∀ v ∈ samples,
        (Member m (.ref settings.root) v ↔ ¬ (v.isNull = true ∧ s.isRecord = true)) := by
  obtain ⟨g, hg, hread⟩ := read_generate hformat hoptional hroot hk
  exact ⟨g, _, hg, hread, fun v hv => member_root hu (Shape.eq_of_inferAll hu.json hs) hv⟩

/-- Objects with a property that is only null, and one that is missing from one of them. -/
def recordSamples : List Value :=
  [.object [("b", .null), ("a-b", .array [.int 1, .null])], .object [("b", .null)]]

theorem uniform_recordSamples : Value.Uniform recordSamples := by
  refine .of_below (by decide) (by decide) (by decide) (fun name hname => ?_) .nil
  have hnames : Value.namesSeen recordSamples = [Text.ofString "b", Text.ofString "a-b"] := by
    decide
  rw [hnames, List.mem_pair] at hname
  obtain rfl | rfl := hname
  · exact .of_below (by decide) (by decide) (by decide) nofun .nil
  · refine .of_below (by decide) (by decide) (by decide) nofun ?_
    exact .of_below (by decide) (by decide) (by decide) nofun .nil

theorem member_recordSamples : ∃ s g m, Shape.inferAll (some 2) recordSamples = .ok s ∧
    generate s Target.typeScript.settings = .ok g ∧ Module.read g.content = some m ∧
      Member m (.ref "Root") (.object [("b", .null)]) := by
  have hs := (Shape.inferAll_eq uniform_recordSamples.json (by decide) 2).trans (if_pos (by decide))
  have hformat : Target.typeScript.settings.format = .string Target.typeScript.name := rfl
  obtain ⟨g, m, hg, hread, hmember⟩ := member_content uniform_recordSamples hs hformat rfl
    (by decide) (by decide +kernel)
  have hlast := hmember (.object [("b", .null)]) (List.mem_cons_of_mem _ List.mem_cons_self)
  exact ⟨_, g, m, hs, hg, hread, hlast.2 (by decide)⟩

/-- A null, and an object with a property. -/
def nullableSamples : List Value := [.null, .object [("a", .int 1)]]

theorem uniform_nullableSamples : Value.Uniform nullableSamples := by
  refine .of_below (by decide) (by decide) (by decide) (fun name hname => ?_) .nil
  have hnames : Value.namesSeen nullableSamples = [Text.ofString "a"] := by decide
  rw [hnames, List.mem_singleton] at hname
  obtain rfl := hname
  exact .of_below (by decide) (by decide) (by decide) nofun .nil

/-- **The null of a record at the root is left out**: the root type is written as an interface, and
a null sample is not a member of it. -/
theorem not_member_null : Value.Uniform nullableSamples ∧
    ∃ s g m, Shape.inferAll (some 1) nullableSamples = .ok s ∧
      generate s Target.typeScript.settings = .ok g ∧ Module.read g.content = some m ∧
      ∃ v ∈ nullableSamples, ¬ Member m (.ref "Root") v := by
  have hu := uniform_nullableSamples
  have hs := (Shape.inferAll_eq hu.json (by decide) 1).trans (if_pos (by decide))
  have hformat : Target.typeScript.settings.format = .string Target.typeScript.name := rfl
  obtain ⟨g, hg, hread⟩ := read_generate (s := merge (nullableSamples.map of)) hformat rfl
    (by decide) (by decide +kernel)
  refine ⟨hu, _, g, _, hs, hg, hread, .null, List.mem_cons_self, fun h => ?_⟩
  exact (member_root hu rfl List.mem_cons_self).1 h ⟨rfl, by decide +kernel⟩

end Interface

end TypeSketch
