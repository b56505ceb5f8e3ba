import TypeSketch.Proofs.Pieces.Jsdoc
import TypeSketch.Proofs.Pieces.TypedDict
import TypeSketch.Proofs.Pieces.TypeScript

/-!
# Nothing is lost in writing

* `Target.keepsKeys`: the formats in which keys stand as they are.
* `Target.shown_of_content`: equal contents show equal declarations.
* `content_inj`: **different shapes have different contents.**
-/

namespace TypeSketch

/-! ## Contents -/

namespace Target

/-- The formats that keep the keys of objects. -/
def keepsKeys : Target → Bool
  | typeScript | jsdoc | typedDict => true
  | dataclass | pydantic => false

/-- What can follow a declaration in a format. -/
def EndsDeclaration : Target → Text → Prop
  | typedDict => TypedDict.EndsDeclaration
  | _ => fun _ => True

theorem pieces {target : Target} (h : target.keepsKeys = true) :
    Pieces (fun d => target.separator ++ target.declare d) Declaration.shown Declaration.Writable
      target.EndsDeclaration (fun x => x = "\n") := by
  cases target with
  | typeScript => exact TypeScript.pieces
  | jsdoc => exact Jsdoc.pieces
  | typedDict => exact TypedDict.pieces
  | dataclass | pydantic => cases h

/-- **Equal contents show equal declarations**, in the formats that keep keys. -/
theorem shown_of_content {target : Target} (ht : target.keepsKeys = true) {ds es : List Declaration}
    (hd : ∀ d ∈ ds, d.Writable) (he : ∀ e ∈ es, e.Writable) (hnd : ds ≠ []) (hne : es ≠ [])
    (h : target.content ds = target.content es) :
    ds.map Declaration.shown = es.map Declaration.shown := by
  rw [content_eq, content_eq, List.append_assoc, List.append_assoc] at h
  -- the imports come off first
  have hbody : Text.join target.separator (ds.map target.declare) ++ ("\n" : Text) =
      Text.join target.separator (es.map target.declare) ++ "\n" := by
    cases target with
    | typeScript | jsdoc => exact h
    | typedDict =>
      simp only [preamble, List.append_assoc] at h
      exact TypedDict.preamble_append_inj h
    | dataclass | pydantic => cases ht
  have hjoin : ∀ ds : List Declaration, ds ≠ [] →
      target.separator ++ Text.join target.separator (ds.map target.declare) =
        ds.flatMap fun d => target.separator ++ target.declare d := by
    intro ds hne
    cases ds with
    | nil => exact absurd rfl hne
    | cons d ds =>
      rw [List.map_cons, Text.join_cons, List.flatMap_map, List.flatMap_cons, List.append_assoc]
  have hrow := congrArg (target.separator ++ ·) hbody
  simp only [← List.append_assoc, hjoin ds hnd, hjoin es hne] at hrow
  exact ((pieces ht).append_inj hd he rfl rfl hrow).1

end Target

/-! ## Shapes -/

namespace Shape

/-- **Writing loses nothing** in the formats that keep keys: under one plain name for the root, with
fields marked that may be missing, two shapes have the same content only if they are equal. They are
regular at every place, their keys consist of Unicode scalar values, and neither is a record at the
root whose null is left out. -/
theorem content_inj {target : Target} {settings : Settings} (ht : target.keepsKeys = true)
    (hformat : settings.format = .string target.name) (hoptional : settings.useOptional = true)
    (hroot : TypeScript.isPlainName settings.root = true) {s₁ s₂ : Shape}
    (h₁ : ∀ place t, s₁.at? place = some t → t.Regular)
    (h₂ : ∀ place t, s₂.at? place = some t → t.Regular)
    (hk₁ : ∀ r ∈ s₁.records, ∀ key ∈ Entries.names r.fields, ∀ c ∈ key, c.isSurrogate = false)
    (hk₂ : ∀ r ∈ s₂.records, ∀ key ∈ Entries.names r.fields, ∀ c ∈ key, c.isSurrogate = false)
    (hn₁ : ¬ (s₁.isRecord = true ∧ s₁.nullable = true))
    (hn₂ : ¬ (s₂.isRecord = true ∧ s₂.nullable = true)) :
    ∃ g₁ g₂, generate s₁ settings = .ok g₁ ∧ generate s₂ settings = .ok g₂ ∧
      (g₁.content = g₂.content ↔ s₁ = s₂) := by
  refine ⟨_, _, generate_eq hformat s₁, generate_eq hformat s₂, fun h => ?_, fun h => by rw [h]⟩
  rw [hoptional] at h
  have hwhole : ∀ s : Shape, (∀ r ∈ s.records, ∀ key ∈ Entries.names r.fields, ∀ c ∈ key,
      c.isSurrogate = false) → ∀ r ∈ s.records, ∀ key ∈ Entries.names r.fields, key.IsWhole :=
    fun s hk r hr key hkey => .of_scalar (hk r hr key hkey)
  have hshown := Target.shown_of_content ht (writable_declarations hroot (hwhole s₁ hk₁))
    (writable_declarations hroot (hwhole s₂ hk₂)) (declarations_ne_nil _ _ _)
    (declarations_ne_nil _ _ _) h
  exact eq_of_shown (sound_iff_regular.2 h₁) (sound_iff_regular.2 h₂) hn₁ hn₂ hshown

/-- An object with a plain key, the same with a line feed behind it, and a key that looks like a line
of a declaration. -/
def lineSample : Value := .object [("a", .int 1), ("a\n", .string "x"), ("b: RootNested;\n", .null)]

/-- The same in another order. -/
def swappedSample : Value :=
  .object [("a\n", .string "x"), ("a", .int 1), ("b: RootNested;\n", .null)]

theorem content_swappedSample : ∃ g₁ g₂,
    generate (of lineSample) Target.typedDict.settings = .ok g₁ ∧
      generate (of swappedSample) Target.typedDict.settings = .ok g₂ ∧ g₁.content ≠ g₂.content := by
  have h₁ := sound_iff_regular.1 (sound_of (v := lineSample) (by decide))
  have h₂ := sound_iff_regular.1 (sound_of (v := swappedSample) (by decide))
  have hformat : Target.typedDict.settings.format = .string Target.typedDict.name := rfl
  obtain ⟨g₁, g₂, hg₁, hg₂, hiff⟩ := content_inj rfl hformat rfl (by decide) h₁ h₂
    (by decide +kernel) (by decide +kernel) (by decide) (by decide)
  refine ⟨g₁, g₂, hg₁, hg₂, fun h => ?_⟩
  have hnames := congrArg (fun s => Entries.names s.fields) (hiff.1 h)
  revert hnames
  decide

end Shape

end TypeSketch
