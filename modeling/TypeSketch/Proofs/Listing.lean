import TypeSketch.Generate
import TypeSketch.Proofs.Numbering
import TypeSketch.Shape.Paths

/-!
# The list of declarations

* `TypeExpr.names`, `Declaration.uses`: the declared types that a type or a declaration refers to.
* `Ordered`: every declaration stands behind those it refers to.
* `shapes_paths`: the rows that list the paths below a shape list its records in the order of their
  numbers.
* `Target.content_eq`: every format writes one piece for each declaration.
* `generate_eq`: what is generated in a format that is named.
* `Lists`: a list of declarations that is complete, closed and in order for some records.
* `lists_declarations`: **the declarations of a shape are such a list for the record rows below
  it**, in every format.
-/

namespace TypeSketch

/-- The declared types that a type refers to. -/
def TypeExpr.names : TypeExpr → List Text
  | .named name => [name]
  | .list t | .orNull t => t.names
  | .null | .text | .number | .boolean | .anyObject | .anyList => []

theorem TypeExpr.names_withNullable (nullable : Bool) (t : TypeExpr) :
    (t.withNullable nullable).names = t.names := by cases nullable <;> rfl

/-- The declared types that a declaration refers to. -/
def Declaration.uses (d : Declaration) : List Text :=
  match d.body with
  | .alias t => t.names
  | .record fields => fields.flatMap fun f => f.type.names

/-! ## Declarations in order -/

/-- Every declaration stands behind those that it refers to. -/
def Ordered (ds : List Declaration) : Prop :=
  ∀ before d after, ds = before ++ d :: after → ∀ n ∈ d.uses, n ∈ before.map (·.name)

theorem ordered_nil : Ordered [] := fun before d after h => by simp at h

/-- Declarations can be added in order when each refers to those in front of it, old or new. -/
theorem Ordered.append_of {ds es : List Declaration} (hd : Ordered ds)
    (he : ∀ before d after, es = before ++ d :: after →
      ∀ n ∈ d.uses, n ∈ (ds ++ before).map (·.name)) : Ordered (ds ++ es) := by
  intro before d after h n hn
  rcases List.append_eq_append_iff.1 h with ⟨new, rfl, hnew⟩ | ⟨rest, rfl, hrest⟩
  · exact he new d after hnew n hn
  · cases rest with
    | nil => simpa using he [] d after hrest.symm n hn
    | cons d' rest =>
      obtain ⟨rfl, -⟩ := List.cons.inj hrest
      exact hd before d rest rfl n hn

theorem Ordered.append {ds es : List Declaration} (hd : Ordered ds) (he : Ordered es) :
    Ordered (ds ++ es) :=
  hd.append_of fun before d after h n hn => by
    rw [List.map_append]
    exact List.mem_append_right _ (he before d after h n hn)

theorem Ordered.concat {ds : List Declaration} {d : Declaration} (hd : Ordered ds)
    (h : ∀ n ∈ d.uses, n ∈ ds.map (·.name)) : Ordered (ds ++ [d]) := by
  refine hd.append_of fun before e after he n hn => ?_
  obtain ⟨rfl, hcons⟩ | ⟨-, hnil⟩ := List.singleton_eq_append_iff.1 he
  · obtain ⟨rfl, -⟩ := List.cons.inj hcons
    simpa using h n hn
  · cases hnil

namespace Shape

variable {s t : Shape} {useOptional : Bool} {root : Text} {i : Nat}

theorem IsBare.names_typeFrom (h : s.IsBare) (name : Nat → Text) :
    (typeFrom name i s).names = [] := by
  obtain ⟨kind, properties, required, items, nullable⟩ := s
  obtain ⟨hr, hi⟩ := h
  cases kind with
  | object =>
    have he : (properties.getD []).isEmpty = true := by simpa [isRecord, fields] using hr
    rw [typeFrom, if_pos he, TypeExpr.names_withNullable]
    rfl
  | array =>
    obtain rfl : items = none := hi rfl
    rw [typeFrom, TypeExpr.names_withNullable]
    rfl
  | null => rfl
  | string | number | boolean => exact TypeExpr.names_withNullable _ _

/-- What the type of a shape refers to is declared among its records. -/
theorem names_typeFrom (s : Shape) (i : Nat) :
    ∀ n ∈ (typeFrom (nestedName root) i s).names,
      n ∈ (declaredFrom useOptional root i s).map (·.name) := by
  induction s using records_induction generalizing i with
  | bare s hb => simp [hb.names_typeFrom]
  | array s t hk hi ih =>
    rw [typeFrom_of_array hk hi, declaredFrom_of_array hk hi, TypeExpr.names_withNullable]
    split
    · simp [TypeExpr.names]
    · exact ih i
  | record s hr ih =>
    rw [typeFrom_of_record hr, declaredFrom_of_record hr, TypeExpr.names_withNullable]
    simp [TypeExpr.names, recordDeclaration]

/-- What some fields refer to is declared among the records in their properties. -/
theorem names_fieldsFrom {required : List Label} (fs : List (Text × Shape)) (i : Nat) :
    ∀ n ∈ (fieldsFrom useOptional (nestedName root) required i fs).flatMap (·.type.names),
      n ∈ (declaredFromFields useOptional root i fs).map (·.name) := by
  induction fs generalizing i with
  | nil => simp [fieldsFrom]
  | cons f rest ih =>
    intro n hn
    rw [fieldsFrom, List.flatMap_cons, List.mem_append] at hn
    rw [declaredFromFields, List.map_append, List.mem_append]
    exact hn.imp (names_typeFrom f.2 i n) (ih _ n)

theorem ordered_declaredFromFields {fs : List (Text × Shape)}
    (h : ∀ f ∈ fs, ∀ i, Ordered (declaredFrom useOptional root i f.2)) (i : Nat) :
    Ordered (declaredFromFields useOptional root i fs) := by
  induction fs generalizing i with
  | nil => exact ordered_nil
  | cons f rest ih =>
    rw [List.forall_mem_cons] at h
    exact (h.1 i).append (ih h.2 _)

/-- Records are declared behind the records they refer to. -/
theorem ordered_declaredFrom (s : Shape) (i : Nat) :
    Ordered (declaredFrom useOptional root i s) := by
  induction s using records_induction generalizing i with
  | bare s hb => rw [hb.declaredFrom]; exact ordered_nil
  | array s t hk hi ih => rw [declaredFrom_of_array hk hi]; exact ih i
  | record s hr ih =>
    rw [declaredFrom_of_record hr]
    exact (ordered_declaredFromFields ih (i + 1)).concat (names_fieldsFrom s.fields (i + 1))

/-- **Every declaration of a shape stands behind those it refers to.** -/
theorem ordered_declarations (useOptional : Bool) (root : Text) (s : Shape) :
    Ordered (s.declarations useOptional root) := by
  rw [declarations_eq, rootBody, declaredBelow]
  split
  · exact (ordered_declaredFromFields (fun f _ => ordered_declaredFrom f.2) 0).concat
      (names_fieldsFrom s.fields 0)
  · exact (ordered_declaredFrom s 0).concat (names_typeFrom s 0)

/-! ## Rows and records -/

theorem records_eq (s : Shape) :
    s.records = (if s.isRecord then [s] else []) ++ s.recordsBelow := by
  rw [recordsBelow]
  split
  · next h => rw [records_of_record h]; rfl
  · rfl

theorem IsBare.paths (h : s.IsBare) (above : Text) : paths above s = [] := by
  obtain ⟨kind, properties, required, items, nullable⟩ := s
  obtain ⟨hr, hi⟩ := h
  cases kind with
  | object =>
    cases properties <;>
      simp_all [Shape.paths, pathsOfProperties, pathsOfFields, isRecord, fields]
  | array => simp_all [Shape.paths, pathsOfItems]
  | null | string | number | boolean => rfl

theorem paths_of_array (hk : s.kind = .array) (hi : s.items = some t) (above : Text) :
    paths above s = ⟨itemsPath above, t, true⟩ :: paths (itemsPath above) t := by
  cases s
  cases hk
  cases hi
  rfl

theorem paths_of_record (h : s.isRecord = true) (above : Text) :
    paths above s = pathsOfFields above (s.required.getD []) s.fields := by
  obtain ⟨hk, -⟩ := isRecord_iff.1 h
  obtain ⟨kind, properties, required, items, nullable⟩ := s
  cases hk
  cases properties <;> rfl

/-- The shapes of the record rows among some rows. -/
def recordShapes (rows : List Row) : List Shape :=
  (rows.filter fun row => row.shape.isRecord).map (·.shape)

theorem recordShapes_cons (row : Row) (rows : List Row) :
    recordShapes (row :: rows) =
      (if row.shape.isRecord then [row.shape] else []) ++ recordShapes rows := by
  rw [recordShapes, List.filter_cons]
  split <;> rfl

theorem shapes_pathsOfFields {fs : List (Text × Shape)}
    (h : ∀ f ∈ fs, ∀ above, recordShapes (paths above f.2) = f.2.recordsBelow) (above : Text)
    (required : List Label) :
    recordShapes (pathsOfFields above required fs) = recordsOfFields fs := by
  induction fs with
  | nil => rfl
  | cons f rest ih =>
    rw [List.forall_mem_cons] at h
    rw [pathsOfFields, recordShapes_cons, recordShapes, List.filter_append, List.map_append,
      recordsOfFields, records_eq f.2, List.append_assoc]
    congr 2
    · exact h.1 _
    · exact ih h.2

/-- **The rows below a shape list its records in the order of their numbers.** -/
theorem shapes_paths (s : Shape) (above : Text) :
    recordShapes (paths above s) = s.recordsBelow := by
  induction s using records_induction generalizing above with
  | bare s hb =>
    rw [hb.paths, recordsBelow, if_neg (by simp [hb.1]), hb.records]
    rfl
  | array s t hk hi ih =>
    have hr : ¬ s.isRecord = true := by simp [isRecord, hk]
    rw [paths_of_array hk hi, recordShapes_cons, ih, ← records_eq, recordsBelow, if_neg hr,
      records_of_array hk hi]
  | record s hr ih =>
    rw [paths_of_record hr, recordsBelow, if_pos hr]
    exact shapes_pathsOfFields ih above _

end Shape

/-! ## Pieces of text -/

namespace Target

/-- The text of a declaration in a format. -/
def declare : Target → Declaration → Text
  | typeScript => TypeScript.declare
  | jsdoc => Jsdoc.declare
  | typedDict => TypedDict.declare
  | dataclass => Dataclass.declare
  | pydantic => Pydantic.declare

/-- What stands in front of the declarations: the imports, if there are any. -/
def preamble : Target → List Declaration → Text
  | typeScript, _ | jsdoc, _ => []
  | typedDict, ds => TypedDict.imports ds ++ "\n\n\n"
  | dataclass, ds => Dataclass.imports ds ++ "\n\n\n"
  | pydantic, _ => ("from pydantic import BaseModel, Field" : Text) ++ "\n\n\n"

/-- What stands between two declarations. -/
def separator : Target → Text
  | typeScript | jsdoc => "\n\n"
  | typedDict | dataclass | pydantic => "\n\n\n"

/-- **Every format writes one piece for each declaration.** -/
theorem content_eq (target : Target) (ds : List Declaration) :
    target.content ds = target.preamble ds ++
      Text.join target.separator (ds.map target.declare) ++ "\n" := by
  cases target <;> rfl

/-- The settings for a format when nothing else is asked for. -/
def settings (target : Target) : Settings :=
  ⟨.string target.name, "Root", true, List.cons_ne_nil _ _⟩

end Target

/-! ## The whole list -/

namespace Shape

/-- **A complete, closed and ordered list of declarations.** Given some records in the order of
their numbers and the names that were handed out, every record is declared once, after its number,
and the declaration of the root comes last. -/
structure Lists (useOptional : Bool) (root : Text) (s : Shape) (records : List Shape)
    (names : List Text) (ds : List Declaration) : Prop where
  length_eq : ds.length = 1 + records.length
  /-- There are as many names as records, and they are the first ones below the root. -/
  names_eq : names = nestedNames root records.length
  nodup_names : names.Nodup
  root_not_mem : root ∉ names
  /-- A record is declared under the name of its number, and the records below it go by the
  numbers that follow. -/
  record : ∀ k (r : Shape), records[k]? = some r → ∃ d ∈ ds, names[k]? = some d.name ∧
    d.body = .record (r.recordFields useOptional (nestedName root) (k + 1))
  declared_once : ∀ n ∈ names, (ds.map (·.name)).count n = 1
  ordered : Ordered ds
  /-- The last declaration is that of the root. -/
  last : ∃ d, ds.getLast? = some d ∧ d.name = root ∧ d.body = rootBody useOptional root s

variable {useOptional : Bool} {root : Text}

theorem names_recordDeclarations (records : List Shape) :
    (recordDeclarations useOptional root 0 records).map (·.name) =
      nestedNames root records.length := by
  rw [recordDeclarations, List.map_map, nestedNames, List.range_eq_range', ← List.zipIdx_map_snd,
    List.map_map]
  rfl

theorem mem_recordDeclarations {records : List Shape} {k : Nat} {r : Shape}
    (h : records[k]? = some r) :
    recordDeclaration useOptional root k r ∈ recordDeclarations useOptional root 0 records :=
  List.mem_map_of_mem (List.mk_mem_zipIdx_iff_getElem?.2 h)

/-- **A record below a shape is declared under the name of its number.** -/
theorem mem_declarations {s : Shape} {k : Nat} {r : Shape} (h : s.recordsBelow[k]? = some r) :
    recordDeclaration useOptional root k r ∈ s.declarations useOptional root := by
  rw [declarations_eq]
  exact List.mem_append_left _ ((declaredBelow_perm s).mem_iff.2 (mem_recordDeclarations h))

/-- The names that are declared. -/
theorem names_declarations (useOptional : Bool) (root : Text) (s : Shape) :
    ((s.declarations useOptional root).map (·.name)).Perm
      (root :: nestedNames root s.recordsBelow.length) := by
  rw [declarations_eq, List.map_append, ← names_recordDeclarations]
  exact (List.perm_append_singleton _ _).trans (.cons _ ((declaredBelow_perm s).map _))

/-- No name is declared twice. -/
theorem nodup_names_declarations (s : Shape) :
    ((s.declarations useOptional root).map (·.name)).Nodup := by
  rw [(names_declarations useOptional root s).nodup_iff, List.nodup_cons]
  exact ⟨root_not_mem_nestedNames _ _, nodup_nestedNames _ _⟩

/-- What is generated in a format that is named. -/
theorem generate_eq {target : Target} {settings : Settings}
    (h : settings.format = .string target.name) (s : Shape) :
    generate s settings = .ok
      { name := settings.root
        content := target.content (s.declarations settings.useOptional settings.root)
        dependencies := target.dependencies } := by
  rw [generate, h, Target.ofValue, Target.ofName?_name]
  rfl

/-- The declarations of a shape are complete, closed and ordered for the records below it. -/
theorem lists_recordsBelow (s : Shape) :
    Lists useOptional root s s.recordsBelow (nestedNames root s.recordsBelow.length)
      (s.declarations useOptional root) := by
  refine ⟨?_, rfl, nodup_nestedNames _ _, root_not_mem_nestedNames _ _, fun k r hr => ?_,
    fun n hn => ?_, ordered_declarations useOptional root s, ?_⟩
  · -- there are as many declarations as names
    have hlength := (names_declarations useOptional root s).length_eq
    rw [List.length_map, List.length_cons, length_nestedNames] at hlength
    omega
  · refine ⟨_, mem_declarations hr, ?_, rfl⟩
    obtain ⟨hk, -⟩ := List.getElem?_eq_some_iff.1 hr
    show (nestedNames root _)[k]? = some (nestedName root k)
    rw [nestedNames, List.getElem?_map, List.getElem?_range hk]
    rfl
  · exact List.count_eq_one_of_mem (nodup_names_declarations s)
      ((names_declarations useOptional root s).mem_iff.2 (List.mem_cons_of_mem _ hn))
  · refine ⟨⟨root, rootBody useOptional root s, nestedNames root s.recordsBelow.length⟩, ?_⟩
    rw [declarations_eq, List.getLast?_concat]
    exact ⟨rfl, rfl, rfl⟩

end Shape

end TypeSketch
