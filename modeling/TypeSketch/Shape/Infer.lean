import TypeSketch.Shape.Merge

/-!
# Inferring shapes

A sample is walked from its root, each value in front of its parts, and no deeper than a limit.

* `Shape.infer`: the shape of one sample.
* `Shape.inferAll`: one shape for several samples, reconciled like the elements of an array.
* `Shape.mapM_infer_eq`: the samples are walked like elements, too.
-/

namespace TypeSketch.Shape

/-- The shape of a leaf. Arrays and objects are walked by `inferAt`. -/
def ofLeaf : Value → Except Fault Shape
  | .null => .ok null
  | .bool _ => .ok { kind := .boolean }
  | .number _ => .ok { kind := .number }
  | .string _ => .ok { kind := .string }
  | .array _ => .ok { kind := .array }
  | .object _ => .ok { kind := .object }
  | .foreign typeName => .error (.foreignValue typeName)

/-- Whether a depth is within a limit. -/
def checkDepth (limit : Option Int) (depth : Nat) : Except Fault Unit :=
  match limit with
  | none => .error .noDepthLimit
  | some most => if most < depth then .error (.tooDeep limit) else .ok ()

mutual

/-- The shape of a value that lies at a depth. -/
def inferAt (limit : Option Int) (depth : Nat) : Value → Except Fault Shape
  | .array elements => do
    checkDepth limit depth
    let shapes ← inferElements limit (depth + 1) elements
    pure { kind := .array, items := some (merge shapes) }
  | .object members => do
    checkDepth limit depth
    let fields ← inferMembers limit (depth + 1) members
    pure
      { kind := .object
        properties := some fields
        required := Labels.ofNames? ((members.filter fun m => !m.2.isNull).map (·.1)) }
  | v => do
    checkDepth limit depth
    ofLeaf v

/-- The shapes of the elements of an array. -/
def inferElements (limit : Option Int) (depth : Nat) : List Value → Except Fault (List Shape)
  | [] => .ok []
  | v :: rest => do
    let s ← inferAt limit depth v
    let shapes ← inferElements limit depth rest
    pure (s :: shapes)

/-- The shapes of the members of an object. -/
def inferMembers (limit : Option Int) (depth : Nat) :
    List (Text × Value) → Except Fault (List (Text × Shape))
  | [] => .ok []
  | (name, v) :: rest => do
    let s ← inferAt limit depth v
    let fields ← inferMembers limit depth rest
    pure ((name, s) :: fields)

end

/-- The shape of a sample that nests no deeper than a limit; its root is at depth zero. -/
def infer (limit : Option Int) (v : Value) : Except Fault Shape := inferAt limit 0 v

/-- The shape of several samples. -/
def inferAll (limit : Option Int) (samples : List Value) : Except Fault Shape := do
  let shapes ← samples.mapM (infer limit)
  if shapes.isEmpty then .error .noSamples else .ok (merge shapes)

/-- Samples are walked one by one, like elements that lie at no depth. -/
theorem mapM_infer_eq (limit : Option Int) (samples : List Value) :
    samples.mapM (infer limit) = inferElements limit 0 samples := by
  induction samples with
  | nil => rfl
  | cons v rest ih =>
    rw [List.mapM_cons, ih, inferElements]
    rfl

end TypeSketch.Shape
