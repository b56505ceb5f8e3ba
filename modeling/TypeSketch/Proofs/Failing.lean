import TypeSketch.Generate

/-!
# What operations fail by

* `exists_of_bind_ok`: both steps of something that succeeds succeed.
* `FailsBy`: whatever something fails by has a property. It is enough that each step has it.
* `Fault.refusesText`: a text is refused for itself, because it is no JSON or too large.
* `generateFromValue_failsBy`: **no value fails by what a text is refused for.**
-/

namespace TypeSketch

section Failing

variable {α β : Type} {p : Fault → Prop} {f : Fault}

/-- Both parts of something that succeeds succeed. -/
theorem exists_of_bind_ok {ε : Type} {x : Except ε α} {f : α → Except ε β} {b : β}
    (h : x >>= f = .ok b) : ∃ a, x = .ok a ∧ f a = .ok b := by
  cases x with
  | error e => cases h
  | ok a => exact ⟨a, rfl, h⟩

/-- Whatever something fails by has a property. -/
def FailsBy (p : Fault → Prop) (x : Except Fault α) : Prop := ∀ f, x = .error f → p f

theorem FailsBy.ok (a : α) : FailsBy p (.ok a) := by
  intro f h
  cases h

theorem FailsBy.error (h : p f) : FailsBy p (.error f : Except Fault α) := by
  intro g hg
  cases hg
  exact h

/-- The second step fails by the property at least on what the first one comes to. -/
theorem FailsBy.bind_of {x : Except Fault α} {g : α → Except Fault β} (hx : FailsBy p x)
    (hg : ∀ a, x = .ok a → FailsBy p (g a)) : FailsBy p (x >>= g) := by
  intro f h
  cases x with
  | error f' =>
    cases h
    exact hx f rfl
  | ok a => exact hg a rfl f h

theorem FailsBy.bind {x : Except Fault α} {g : α → Except Fault β} (hx : FailsBy p x)
    (hg : ∀ a, FailsBy p (g a)) : FailsBy p (x >>= g) := hx.bind_of fun a _ => hg a

end Failing

/-- A text is refused for itself: it is no JSON, or too large. -/
def Fault.refusesText : Fault → Bool
  | .emptyInput | .malformedInput _ | .tooLarge .. => true
  | _ => false

/-- A fault of something other than the text itself. -/
abbrev Fault.IsOther (f : Fault) : Prop := f.refusesText = false

namespace Shape

theorem checkDepth_failsBy (limit : Option Int) (depth : Nat) :
    FailsBy Fault.IsOther (checkDepth limit depth) := by
  unfold checkDepth
  split
  · exact .error rfl
  · split
    · exact .error rfl
    · exact .ok ()

mutual

theorem inferAt_failsBy (limit : Option Int) (depth : Nat) :
    ∀ v, FailsBy Fault.IsOther (inferAt limit depth v)
  | .array elements => by
    rw [inferAt]
    exact (checkDepth_failsBy _ _).bind fun _ =>
      (inferElements_failsBy _ _ elements).bind fun _ => .ok _
  | .object members => by
    rw [inferAt]
    exact (checkDepth_failsBy _ _).bind fun _ =>
      (inferMembers_failsBy _ _ members).bind fun _ => .ok _
  | .null => (checkDepth_failsBy _ _).bind fun _ => .ok _
  | .bool _ => (checkDepth_failsBy _ _).bind fun _ => .ok _
  | .number _ => (checkDepth_failsBy _ _).bind fun _ => .ok _
  | .string _ => (checkDepth_failsBy _ _).bind fun _ => .ok _
  | .foreign _ => (checkDepth_failsBy _ _).bind fun _ => .error rfl

theorem inferElements_failsBy (limit : Option Int) (depth : Nat) :
    ∀ elements, FailsBy Fault.IsOther (inferElements limit depth elements)
  | [] => .ok []
  | v :: rest => by
    rw [inferElements]
    exact (inferAt_failsBy _ _ v).bind fun _ => (inferElements_failsBy _ _ rest).bind fun _ => .ok _

theorem inferMembers_failsBy (limit : Option Int) (depth : Nat) :
    ∀ members, FailsBy Fault.IsOther (inferMembers limit depth members)
  | [] => .ok []
  | (_, v) :: rest => by
    rw [inferMembers]
    exact (inferAt_failsBy _ _ v).bind fun _ => (inferMembers_failsBy _ _ rest).bind fun _ => .ok _

end

end Shape

theorem ofValue_failsBy (given : Value) : FailsBy Fault.IsOther (Target.ofValue given) := by
  unfold Target.ofValue
  split
  · split
    · exact .ok _
    · exact .error rfl
  · exact .error rfl

/-- **No value fails by what a text is refused for.** -/
theorem generateFromValue_failsBy (v : Value) (settings : Settings) (depth : Option Int) :
    FailsBy Fault.IsOther (generateFromValue v settings depth) :=
  (Shape.inferAt_failsBy depth 0 v).bind fun _ => (ofValue_failsBy _).bind fun _ => .ok _

end TypeSketch
