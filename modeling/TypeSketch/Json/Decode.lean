import TypeSketch.Json.Scalar

/-!
# Reading JSON

One loop reads a value: it keeps the arrays and objects that are still open as a stack of frames,
so nesting costs no more than length. Every step takes something off the front of the text.

* `run`: the loop, either in front of a value or behind a complete one.
* `decode`: the value of a whole text.
* `elements`: the elements of a top-level array one by one, up to the first mishap.
* `Complaint.message`: a syntax error with its line, column and offset.
-/

namespace TypeSketch.Json

/-- An array or object that is still open: what was read of it, latest first, and for an object
the name whose value comes next. -/
inductive Frame where
  | array (done : List Value)
  | object (done : List (Text × Value)) (name : Text)

/-- Where the loop stands. -/
inductive Place where
  /-- In front of a value. -/
  | before
  /-- Behind a complete value. -/
  | behind (v : Value)

/-- A member's name and the colon behind it: the name and the text in front of the value. -/
def memberName (d : Dialect) (t : Text) : Except Mishap (Text × Text) :=
  match t with
  | [] => .error (.problem .expectedName t)
  | c :: rest =>
    if c = '"' then
      match string d rest with
      | .error m => .error m
      | .ok (name, rest') =>
        match d.skipBlanks rest' with
        | [] => .error (.problem .expectedColon [])
        | c' :: rest'' =>
          if c' = ':' then .ok (name, d.skipBlanks rest'')
          else .error (.problem .expectedColon (c' :: rest''))
    else .error (.problem .expectedName t)

theorem memberName_length {d : Dialect} {t name rest : Text}
    (h : memberName d t = .ok (name, rest)) : rest.length < t.length := by
  unfold memberName at h
  split at h
  · cases h
  · next c r =>
    split at h
    · split at h
      · cases h
      · next s r' hs =>
        have h1 := string_length hs
        have h2 := d.length_skipBlanks_le r'
        split at h
        · cases h
        · next c' r'' hb =>
          rw [hb] at h2
          have h3 := d.length_skipBlanks_le r''
          split at h <;> cases h
          simp only [List.length_cons] at *; omega
    · cases h

/-- What an opening bracket leads to: the empty array at once, or an open frame and the text in
front of its first value. -/
def openArray (d : Dialect) (rest : Text) : Sum (Value × Text) (Frame × Text) :=
  match d.skipBlanks rest with
  | [] => .inr (.array [], [])
  | c :: r => if c = ']' then .inl (.array [], r) else .inr (.array [], c :: r)

/-- What an opening brace leads to: the empty object at once, or an open frame with the first name
and the text in front of its value. -/
def openObject (d : Dialect) (rest : Text) : Except Mishap (Sum (Value × Text) (Frame × Text)) :=
  match d.skipBlanks rest with
  | [] => .error (.problem .expectedName [])
  | c :: r =>
    if c = '}' then .ok (.inl (.object [], r))
    else match memberName d (c :: r) with
      | .error m => .error m
      | .ok (name, r') => .ok (.inr (.object [] name, r'))

/-- What an opening bracket or brace leads to. -/
def opening (d : Dialect) (c : CodePoint) (rest : Text) :
    Except Mishap (Sum (Value × Text) (Frame × Text)) :=
  if c = '[' then .ok (openArray d rest) else openObject d rest

/-- The rest that an opened or completed value leaves. -/
def restOf : Sum (Value × Text) (Frame × Text) → Text
  | .inl (_, rest) => rest
  | .inr (_, rest) => rest

theorem openArray_length (d : Dialect) (t : Text) : (restOf (openArray d t)).length ≤ t.length := by
  have h1 := d.length_skipBlanks_le t
  unfold openArray
  split
  · simp [restOf]
  · next c r hb =>
    rw [hb, List.length_cons] at h1
    split <;> simp only [restOf, List.length_cons] <;> omega

theorem openObject_length {d : Dialect} {t : Text} {s : Sum (Value × Text) (Frame × Text)}
    (h : openObject d t = .ok s) : (restOf s).length ≤ t.length := by
  have h1 := d.length_skipBlanks_le t
  unfold openObject at h
  split at h
  · cases h
  · next c r hb =>
    rw [hb, List.length_cons] at h1
    split at h
    · cases h
      simp only [restOf]; omega
    · split at h
      · cases h
      · next name r' hn =>
        have h2 := memberName_length hn
        cases h
        simp only [restOf, List.length_cons] at *; omega

theorem opening_length {d : Dialect} {c : CodePoint} {t : Text}
    {s : Sum (Value × Text) (Frame × Text)} (h : opening d c t = .ok s) :
    (restOf s).length ≤ t.length := by
  unfold opening at h
  split at h
  · cases h
    exact openArray_length d t
  · exact openObject_length h

/-- What follows a value inside a frame: the end of the frame with its value, or the frame with one
more entry and the text in front of the next value. -/
def closing (d : Dialect) (f : Frame) (v : Value) (t : Text) :
    Except Mishap (Sum (Value × Text) (Frame × Text)) :=
  match d.skipBlanks t with
  | [] => .error (.problem .expectedComma [])
  | c :: rest =>
    match f with
    | .array done =>
      if c = ']' then .ok (.inl (.array (v :: done).reverse, rest))
      else if c = ',' then .ok (.inr (.array (v :: done), d.skipBlanks rest))
      else .error (.problem .expectedComma (c :: rest))
    | .object done name =>
      if c = '}' then .ok (.inl (.object (Entries.ofList ((name, v) :: done).reverse), rest))
      else if c = ',' then
        match memberName d (d.skipBlanks rest) with
        | .error m => .error m
        | .ok (name', rest') => .ok (.inr (.object ((name, v) :: done) name', rest'))
      else .error (.problem .expectedComma (c :: rest))

theorem closing_length {d : Dialect} {f : Frame} {v : Value} {t : Text}
    {s : Sum (Value × Text) (Frame × Text)} (h : closing d f v t = .ok s) :
    (restOf s).length < t.length := by
  unfold closing at h
  have h1 := d.length_skipBlanks_le t
  split at h
  · cases h
  · next c r hb =>
    rw [hb, List.length_cons] at h1
    have h2 := d.length_skipBlanks_le r
    split at h
    · split at h
      · cases h
        simp only [restOf]; omega
      · split at h <;> cases h
        simp only [restOf]; omega
    · split at h
      · cases h
        simp only [restOf]; omega
      · split at h
        · split at h
          · cases h
          · next n r' hn =>
            have h3 := memberName_length hn
            cases h
            simp only [restOf]; omega
        · cases h

/-- Reads on until the outermost value is complete, which it gives with the text behind it. -/
def run (d : Dialect) (frames : List Frame) (place : Place) (t : Text) :
    Except Mishap (Value × Text) :=
  match place with
  | .before =>
    match t with
    | [] => .error (.problem .expectedValue t)
    | c :: rest =>
      if c = '[' || c = '{' then
        -- The open containers are counted before the bracket is read.
        if d.mayNest frames.length then
          match _h : opening d c rest with
          | .error m => .error m
          | .ok (.inl (v, rest')) => run d frames (.behind v) rest'
          | .ok (.inr (f, rest')) => run d (f :: frames) .before rest'
        else .error .tooDeep
      else match _h : scalar d (c :: rest) with
        | .error m => .error m
        | .ok (v, rest') => run d frames (.behind v) rest'
  | .behind v =>
    match frames with
    | [] => .ok (v, t)
    | f :: frames =>
      match _h : closing d f v t with
      | .error m => .error m
      | .ok (.inl (w, rest)) => run d frames (.behind w) rest
      | .ok (.inr (g, rest)) => run d (g :: frames) .before rest
termination_by t.length
decreasing_by
  · have := opening_length _h
    simp only [restOf] at this
    simp only [List.length_cons]; omega
  · have := opening_length _h
    simp only [restOf] at this
    simp only [List.length_cons]; omega
  · exact scalar_length _h
  · exact closing_length _h
  · exact closing_length _h

/-- Reading never gives text back. -/
theorem run_length_le {d : Dialect} {frames : List Frame} {place : Place} {t rest : Text}
    {v : Value} (h : run d frames place t = .ok (v, rest)) : rest.length ≤ t.length := by
  fun_induction run d frames place t with
  | case1 => cases h
  | case2 => cases h
  | case3 _ _ _ _ _ _ _ ho ih =>
    have := ih h
    have := opening_length ho
    simp only [restOf] at this
    simp only [List.length_cons]; omega
  | case4 _ _ _ _ _ _ _ ho ih =>
    have := ih h
    have := opening_length ho
    simp only [restOf] at this
    simp only [List.length_cons]; omega
  | case5 => cases h
  | case6 => cases h
  | case7 _ _ _ _ _ _ hs ih =>
    have := ih h
    have := scalar_length hs
    omega
  | case8 => cases h; exact Nat.le_refl _
  | case9 => cases h
  | case10 _ _ _ _ _ _ hc ih =>
    have := ih h
    have := closing_length hc
    simp only [restOf] at this
    omega
  | case11 _ _ _ _ _ _ hc ih =>
    have := ih h
    have := closing_length hc
    simp only [restOf] at this
    omega

/-- The value of a text and nothing behind it. -/
def decode (d : Dialect) (t : Text) : Except Mishap Value :=
  if beginsWith (fun c => c.val = 0xFEFF) t then .error (.problem .byteOrderMark t)
  else
    match run d [] .before (d.skipBlanks t) with
    | .error m => .error m
    | .ok (v, rest) =>
      match d.skipBlanks rest with
      | [] => .ok v
      | rest => .error (.problem .extraData rest)

/-- The elements of an array, given the text in front of one of them and those before it, latest
first; and the mishap that ends them, which may also lie behind the array. -/
def elements (d : Dialect) (done : List Value) (t : Text) : List Value × Option Mishap :=
  match _h : run d [] .before t with
  | .error m => (done.reverse, some m)
  | .ok (v, rest) =>
    match _h' : d.skipBlanks rest with
    | [] => ((v :: done).reverse, some (.problem .expectedComma []))
    | c :: rest' =>
      if c = ',' then elements d (v :: done) (d.skipBlanks rest')
      else if c = ']' then
        match d.skipBlanks rest' with
        | [] => ((v :: done).reverse, none)
        | rest => ((v :: done).reverse, some (.problem .extraData rest))
      else ((v :: done).reverse, some (.problem .expectedComma (c :: rest')))
termination_by t.length
decreasing_by
  have h1 := run_length_le _h
  have h2 := d.length_skipBlanks_le rest
  have h3 := d.length_skipBlanks_le rest'
  rw [_h', List.length_cons] at h2
  omega

/-- A syntax error and where it is, by line and column from one on and by offset from zero on. -/
structure Complaint where
  problem : Problem
  line : Nat
  column : Nat
  offset : Nat
deriving DecidableEq

namespace Complaint

/-- The error at an offset of a text. -/
def locate (t : Text) (problem : Problem) (offset : Nat) : Complaint :=
  let before := t.take offset
  { problem
    line := before.countP (CodePoint.is '\n') + 1
    column := (before.reverse.takeWhile fun c : CodePoint => c ≠ '\n').length + 1
    offset }

/-- The report: what is wrong, and where. -/
def message (c : Complaint) : Text :=
  c.problem.message ++ ": line " ++ Text.decimal c.line ++ " column " ++ Text.decimal c.column ++
    " (char " ++ Text.decimal c.offset ++ ")"

end Complaint

/-- The report on a mishap in a text: syntax errors are located, the others need no place. -/
def Mishap.complaint? (t : Text) : Mishap → Option Complaint
  | .problem p rest => some (.locate t p (t.length - rest.length))
  | _ => none

end TypeSketch.Json
