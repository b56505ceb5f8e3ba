import TypeSketch.CommandLine.Request
import TypeSketch.Proofs.Failing

/-!
# What accepted arguments ask for

Arguments are read one after another. What they ask for stays sound from one to the next.

* `Options.Sound`: settings that name a format.
* `foldlM_invariant`: what every step of a fold keeps holds at its end.
* `sound_use`, `sound_step`: one more thing that is given keeps the settings sound.
* `sound_of_ofArguments`: **accepted arguments name a format.**
-/

namespace TypeSketch

/-- What every step of a fold keeps holds at its end. -/
theorem foldlM_invariant {α β ε : Type} {f : β → α → Except ε β} {p : β → Prop}
    (hstep : ∀ b a b', f b a = .ok b' → p b → p b') {l : List α} {b b' : β}
    (h : l.foldlM f b = .ok b') (hb : p b) : p b' := by
  induction l generalizing b with
  | nil =>
    cases h
    exact hb
  | cons a l ih =>
    rw [List.foldlM_cons] at h
    obtain ⟨between, hfirst, hrest⟩ := exists_of_bind_ok h
    exact ih hrest (hstep b a between hfirst hb)

/-- Settings that name a format. -/
def Options.Sound (o : Options) : Prop := ∃ target, Target.ofValue o.format = .ok target

/-- A request for definitions names a format. -/
def Request.Sound : Request → Prop
  | .generate _ options _ => options.Sound
  | .version | .overview | .formats | .schema .. => True

namespace Given

variable {g g' : Given} {s : Scope}

/-- One more flag keeps the settings sound, since no other format is taken. -/
theorem sound_use {flag : Flag} {value : Text} (h : g.use s flag value = .ok g')
    (hg : g.options.Sound) : g'.options.Sound := by
  have hrefused : ∀ {r : Except UsageFault Given}, (∀ g', r = .ok g' → g'.options = g.options) →
      r.mapError (Stop.refused s) = .ok g' → g'.options.Sound := by
    intro r hr h
    cases r with
    | error f => cases h
    | ok made =>
      cases h
      rw [hr g' rfl]
      exact hg
  have hchosen : ∀ {flag form other excluded}, ∀ g', g.choose flag form other excluded = .ok g' →
      g'.options = g.options := by
    intro flag form other excluded g' h
    unfold choose at h
    split at h <;> cases h
    rfl
  cases flag with
  | help => cases h
  | version =>
    cases h
    exact hg
  | format =>
    unfold use at h
    dsimp only at h
    split at h
    · next hknown =>
      cases h
      obtain ⟨target, htarget⟩ := Option.isSome_iff_exists.1 hknown
      refine ⟨target, ?_⟩
      show Target.ofValue (.string value) = _
      unfold Target.ofValue
      dsimp only
      rw [htarget]
    · cases h
  | name | output | allRequired =>
    cases h
    exact hg
  | json => exact hrefused hchosen h
  | yaml => exact hrefused hchosen h
  | sampleSize | maxDepth =>
    refine hrefused (fun made hmade => ?_) h
    obtain ⟨n, -, hmade⟩ := exists_of_bind_ok hmade
    cases hmade
    rfl

theorem sound_step {e : Event} (h : g.step s e = .ok g') (hg : g.options.Sound) :
    g'.options.Sound := by
  cases e with
  | use flag value => exact sound_use h hg
  | files paths | command name arguments | surplus t =>
    cases h
    exact hg
  | fault f => cases h

end Given

theorem Command.sound_read {c : Command} {arguments rest : List Text} {request : Request}
    (h : c.read arguments = .ok (request, rest)) : request.Sound := by
  obtain ⟨words, -, h⟩ := exists_of_bind_ok h
  obtain ⟨g, hg, h⟩ := exists_of_bind_ok h
  have hstart : ({} : Given).options.Sound := ⟨.typeScript, rfl⟩
  have hsound : g.options.Sound :=
    foldlM_invariant (p := fun g => g.options.Sound) (fun _ _ _ => Given.sound_step) hg hstart
  split at h
  · cases h
  · cases h
    cases c with
    | generate => exact hsound
    | schema | formats => trivial

/-- What is asked of the program stays sound with one more thing that is asked. -/
theorem Asked.sound_step {a a' : Asked} {e : Event} (h : a.step e = .ok a')
    (ha : ∀ r ∈ a.request, r.Sound) : ∀ r ∈ a'.request, r.Sound := by
  cases e with
  | use flag value =>
    cases flag <;> cases h <;> exact ha
  | files paths | surplus t =>
    cases h
    exact ha
  | fault f => cases h
  | command name arguments =>
    unfold Asked.step at h
    dsimp only at h
    split at h
    · cases h
    · obtain ⟨⟨request, leftOver⟩, hread, h⟩ := exists_of_bind_ok h
      cases h
      intro r hr
      cases hr
      exact Command.sound_read hread

/-- **Accepted arguments name a format**, whenever they ask for definitions. -/
theorem Request.sound_of_ofArguments {arguments : List Text} {request : Request}
    (h : ofArguments arguments = .ok request) : request.Sound := by
  obtain ⟨words, -, h⟩ := exists_of_bind_ok h
  obtain ⟨asked, hasked, h⟩ := exists_of_bind_ok h
  have hsound : ∀ r ∈ asked.request, r.Sound :=
    foldlM_invariant (p := fun a => ∀ r ∈ a.request, r.Sound) (fun _ _ _ => Asked.sound_step)
      hasked nofun
  split at h
  · cases h
    split
    · trivial
    · cases hrequest : asked.request with
      | none => trivial
      | some r => exact hsound r hrequest
  · cases h

end TypeSketch
