import TypeSketch.Proofs.Documents
import TypeSketch.Proofs.JsonLines

/-!
# The readers of documents and lines agree

* `Holds`: a file in which samples were written, as a document or one a line.
* `Holds.feed_eq`: what is read from such a file.
* `feed_of_holds`: **samples are read as they were written, however they are spread over files.**
-/

namespace TypeSketch.Survey

variable {folder : Folder} {path : Text} {vs : List Value}

/-- **A file in which samples were written**: a document that is the array of them, a document that
is a single one and no array with elements, or lines with one each. -/
inductive Holds (folder : Folder) (path : Text) : List Value → Prop where
  | array {vs : List Value} (hvs : ∀ v ∈ vs, v.Portable) (hne : vs ≠ [])
    (hlayout : Layout.ofPath path = .document)
    (hread : folder.read path = .ok (Json.compact (.array vs)).utf8) : Holds folder path vs
  | single {v : Value} (hv : v.Portable) (hlist : ∀ w ws, v ≠ .array (w :: ws))
    (hlayout : Layout.ofPath path = .document)
    (hread : folder.read path = .ok (Json.compact v).utf8) : Holds folder path [v]
  | lines {vs : List Value} {t : Text} (hvs : ∀ v ∈ vs, Lines.Fits v)
    (hspells : Lines.Spells vs t) (hlayout : Layout.ofPath path = .lines)
    (hread : folder.read path = .ok t.utf8) : Holds folder path vs

/-- What was written in a file is read from it. -/
theorem Holds.feed_eq (h : Holds folder path vs) : feedOf folder path = ⟨vs, none⟩ := by
  unfold feedOf
  cases h with
  | array hvs hne hlayout hread =>
    rw [hread, hlayout]
    exact Document.feed_compact_array hne hvs
  | single hv hlist hlayout hread =>
    rw [hread, hlayout]
    exact Document.feed_compact hv hlist
  | lines hvs hspells hlayout hread =>
    rw [hread, hlayout]
    exact Lines.feed_of_spells hspells hvs

theorem concat_of_holds {paths : List Text} {parts : List (List Value)}
    (h : List.Forall₂ (Holds folder) paths parts) :
    Feed.concat (paths.map (feedOf folder)) = ⟨parts.flatten, none⟩ := by
  induction h with
  | nil => rfl
  | cons hfile _ ih =>
    rw [List.map_cons, Feed.concat_cons, hfile.feed_eq, ih]
    rfl

/-- **Samples are read as they were written**, however they are spread over files and whichever way
each file holds its part. -/
theorem feed_of_holds {s : Survey} {parts : List (List Value)}
    (h : List.Forall₂ (Holds s.workspace.folder) s.paths parts) :
    s.feed = ⟨parts.flatten, none⟩ :=
  concat_of_holds h

/-- The lines of two samples, with a blank line in between. -/
def twoSampleLines : Text :=
  Json.compact .null ++ (("\r\n" : Text) ++ ((" " : Text) ++ (("\n" : Text) ++
    Json.compact (.array [.bool true]))))

/-- A survey of an array, of lines and of a single object. -/
def threeFiles : Survey where
  paths := ["a.json", "b.jsonl", "c.json"]
  depth := some 100
  workspace := { folder := { files :=
    [("a.json", (Json.compact (.array [.array [], .string "é\n"])).utf8),
      ("b.jsonl", twoSampleLines.utf8),
      ("c.json", (Json.compact (.object [("n", .int (-7))])).utf8)] } }

/-- Five samples are read from three files. -/
theorem feed_of_holds_threeFiles :
    List.Forall₂ (Holds threeFiles.workspace.folder) threeFiles.paths
        [[.array [], .string "é\n"], [.null, .array [.bool true]], [.object [("n", .int (-7))]]] ∧
      threeFiles.feed = ⟨[.array [], .string "é\n", .null, .array [.bool true],
        .object [("n", .int (-7))]], none⟩ := by
  have harray : ∀ v ∈ [Value.array [], .string "é\n"], v.Portable := by
    simp only [List.forall_mem_cons]
    exact ⟨.array nofun, .string (by decide), nofun⟩
  have hlines : ∀ v ∈ [Value.null, .array [.bool true]], Lines.Fits v := by
    simp only [List.forall_mem_cons]
    refine ⟨⟨.null, ?_⟩, ⟨.array ?_, ?_⟩, nofun⟩
    · rintro most ⟨⟩; decide
    · exact List.forall_mem_singleton.2 (.bool true)
    · rintro most ⟨⟩; decide
  have hobject : (Value.object [("n", .int (-7))]).Portable :=
    .object (by decide) (by decide) (List.forall_mem_singleton.2 (.int (by decide) (by decide)))
  have hspells : Lines.Spells [.null, .array [.bool true]] twoSampleLines :=
    .sample _ (.inr (.inr rfl)) (.blank (by decide) (by decide) (.inl rfl) (.last _))
  have hholds : List.Forall₂ (Holds threeFiles.workspace.folder) threeFiles.paths
      [[.array [], .string "é\n"], [.null, .array [.bool true]], [.object [("n", .int (-7))]]] :=
    .cons (.array harray (by decide) (by decide) rfl)
      (.cons (.lines hlines hspells (by decide) rfl)
        (.cons (.single hobject nofun (by decide) rfl) .nil))
  exact ⟨hholds, feed_of_holds hholds⟩

end TypeSketch.Survey
