import TypeSketch.Folder

/-!
# Files that were written

A path is followed component by component. Writing changes what lies at its end and nothing that it
leads through.

* `get?_of_walk_file`, `not_subfolder_of_walk_absent`: what is known of the end of a path.
* `walk_put`: a path leads to the file that was put at its end.
* `read_write`: **a file that was written is read back.**
-/

namespace TypeSketch.Folder

variable {f f' : Folder} {here parts : List Text} {path place : Text} {bytes old : List UInt8}

theorem get?_of_walk_file (h : f.walk here parts = .file place old) :
    Entries.get? f.files place = some old := by
  induction parts generalizing here with
  | nil => cases h
  | cons part rest ih =>
    rw [walk] at h
    split at h
    · exact ih h
    · dsimp only at h
      split at h
      · next found hfound =>
        split at h
        · cases h
          exact hfound
        · cases h
      · split at h
        · exact ih h
        · split at h <;> cases h

theorem not_subfolder_of_walk_absent (h : f.walk here parts = .absent place) :
    Entries.get? f.files place = none ∧ f.subfolders.contains place = false := by
  induction parts generalizing here with
  | nil => cases h
  | cons part rest ih =>
    rw [walk] at h
    split at h
    · exact ih h
    · dsimp only at h
      split at h
      · split at h <;> cases h
      · next hnone =>
        split at h
        · exact ih h
        · next hno =>
          split at h
          · cases h
            exact ⟨hnone, Bool.eq_false_iff.2 hno⟩
          · cases h

/-- A path leads to the file that was put at its end. -/
theorem walk_put (h : f.walk here parts = .file place old ∨ f.walk here parts = .absent place) :
    walk { f with files := Entries.put f.files place bytes } here parts = .file place bytes := by
  -- a subfolder on the way is not the end of the path
  have hway : ∀ {on : Text}, Entries.get? f.files on = none → f.subfolders.contains on = true →
      on ≠ place := by
    rintro on hnone hsub rfl
    rcases h with h | h
    · rw [get?_of_walk_file h] at hnone
      cases hnone
    · rw [(not_subfolder_of_walk_absent h).2] at hsub
      cases hsub
  induction parts generalizing here with
  | nil => rcases h with h | h <;> cases h
  | cons part rest ih =>
    rw [walk] at h ⊢
    split
    · next hup =>
      rw [if_pos hup] at h
      exact ih h
    · next hdown =>
      rw [if_neg hdown] at h
      dsimp only at h ⊢
      rw [Entries.get?_put]
      cases hfound : Entries.get? f.files (Text.join "/" (here ++ [part])) with
      | some found =>
        rw [hfound] at h
        dsimp only at h
        split at h
        · next hlast =>
          rcases h with h | h
          · cases h
            simp [hlast]
          · cases h
        · rcases h with h | h <;> cases h
      | none =>
        rw [hfound] at h
        dsimp only at h
        split at h
        · next hsub =>
          rw [if_neg (hway hfound hsub).symm, if_pos hsub]
          exact ih h
        · split at h
          · next hlast =>
            rcases h with h | h
            · cases h
            · cases h
              simp [hlast]
          · rcases h with h | h <;> cases h

/-- **A file that was written is read back.** -/
theorem read_write (h : f.write path bytes = .ok f') : f'.read path = .ok bytes := by
  have hput : ∀ {place : Text} {old : List UInt8},
      f.find path = .file place old ∨ f.find path = .absent place →
      find { f with files := Entries.put f.files place bytes } path = .file place bytes := by
    intro place old h
    unfold find at h ⊢
    split at h
    · rcases h with h | h <;> cases h
    · next hpath =>
      rw [if_neg hpath]
      exact walk_put h
  unfold write at h
  split at h
  · next place old hfind =>
    split at h
    · cases h
    · cases h
      rw [read, hput (.inl hfind)]
  · next place hfind =>
    split at h
    · cases h
    · cases h
      rw [read, @hput place [] (.inr hfind)]
  all_goals cases h

end TypeSketch.Folder
