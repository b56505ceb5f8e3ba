import TypeSketch.Console.Style
import TypeSketch.Fault

/-!
# Markup in printed texts

A text that is printed may hold tags in brackets, which style what they enclose and are not shown
themselves.

* `Markup.tokens`: the plain parts and the tags of a text.
* `Markup.render`: the text that is shown, or why the tags do not fit together.
-/

namespace TypeSketch.Markup

/-- A part of a text with markup. -/
inductive Token where
  | plain (t : Text)
  /-- A tag at an offset: its name, and its parameters behind an equals sign. -/
  | tag (offset : Nat) (name : Text) (parameters : Option Text)

/-- A code point that may begin a tag. -/
def beginsTag (c : CodePoint) : Bool := c.isLower || c = '#' || c = '/' || c = '@'

/-- The inside of a tag that starts a text, given what follows the opening bracket, and the rest
behind the closing one. A tag holds no other opening bracket. -/
def tagInside? (t : Text) : Option (Text × Text) :=
  match t with
  | [] => none
  | c :: _ =>
    let inside := t.takeWhile fun d : CodePoint => d ≠ '[' && d ≠ ']'
    match t.dropWhile fun d : CodePoint => d ≠ '[' && d ≠ ']' with
    | d :: rest => if beginsTag c && d = ']' then some (inside, rest) else none
    | [] => none

theorem tagInside?_length {t inside rest : Text} (h : tagInside? t = some (inside, rest)) :
    rest.length < t.length := by
  unfold tagInside? at h
  split at h
  · cases h
  · next c r =>
    simp only at h
    split at h
    · next d rest' hd =>
      split at h
      · cases h
        have hl :=
          (List.dropWhile_suffix (fun d : CodePoint => d ≠ '[' && d ≠ ']') (l := c :: r)).length_le
        rw [hd, List.length_cons] at hl
        omega
      · cases h
    · cases h

/-- A tag at the front of a text, with the backslashes in front of it: how many they are, the inside
of the tag, and the rest. -/
def tagAt? (t : Text) : Option (Nat × Text × Text) :=
  match t.dropWhile (CodePoint.is '\\') with
  | [] => none
  | b :: behind =>
    if b = '[' then
      (tagInside? behind).map fun r => ((t.takeWhile (CodePoint.is '\\')).length, r.1, r.2)
    else none

theorem tagAt?_length {t inside rest : Text} {n : Nat} (h : tagAt? t = some (n, inside, rest)) :
    rest.length < t.length := by
  unfold tagAt? at h
  split at h
  · cases h
  · next b behind hb =>
    split at h
    · obtain ⟨r, hr, he⟩ := Option.map_eq_some_iff.1 h
      have h1 := tagInside?_length hr
      have h2 := (List.dropWhile_suffix (CodePoint.is '\\') (l := t)).length_le
      rw [hb, List.length_cons] at h2
      cases he
      omega
    · cases h

/-- The name of a tag and its parameters. -/
def Token.ofInside (offset : Nat) (inside : Text) : Token :=
  match inside.dropWhile fun c : CodePoint => c ≠ '=' with
  | [] => .tag offset inside none
  | _ :: parameters => .tag offset (inside.takeWhile fun c : CodePoint => c ≠ '=') (some parameters)

/-- A plain part, unless it is empty. -/
def Token.ofPlain (t : Text) : List Token := if t.isEmpty then [] else [.plain t]

/-- The parts that a tag at an offset and the backslashes in front of it stand for. Each pair of
backslashes stands for one, and an odd one makes the tag plain. -/
def Token.ofTag (offset slashes : Nat) (inside : Text) : List Token :=
  Token.ofPlain (Text.times (slashes / 2) '\\') ++
    [if slashes % 2 = 1 then .plain (("[" : Text) ++ inside ++ "]")
    else .ofInside (offset + slashes) inside]

/-- The parts of a text that begins at an offset, with the plain text in front of it in reverse. -/
def tokensFrom (offset : Nat) (plain : Text) : Text → List Token
  | [] => Token.ofPlain plain.reverse
  | c :: rest =>
    match _h : tagAt? (c :: rest) with
    | some (slashes, inside, rest') =>
      Token.ofPlain plain.reverse ++ Token.ofTag offset slashes inside ++
        tokensFrom (offset + slashes + inside.length + 2) [] rest'
    | none => tokensFrom (offset + 1) (c :: plain) rest
termination_by t => t.length
decreasing_by
  · exact tagAt?_length _h
  · simp

/-- The parts of a text. -/
def tokens (t : Text) : List Token := tokensFrom 0 [] t

/-- The code points that a console does not take: bell, backspace, vertical tab, form feed and
carriage return. -/
def isControl (c : CodePoint) : Bool := c.val = 7 || c.val = 8 || (11 ≤ c.val && c.val ≤ 13)

/-- A text without what a console does not take. -/
def printable (t : Text) : Text := t.filter fun c => !isControl c

/-- A plain part as it is shown: a backslash in front of a bracket is left out. -/
def unescape : Text → Text
  | [] => []
  | c :: rest =>
    match rest with
    | [] => [c]
    | d :: _ => if c = '\\' && d = '[' then unescape rest else c :: unescape rest

/-- A tag as it was written. -/
def written (name : Text) (parameters : Option Text) : Text :=
  match parameters with
  | none => ("[" : Text) ++ name ++ "]"
  | some p => ("[" : Text) ++ name ++ "=" ++ p ++ "]"

/-- The styles that are open after a closing tag, latest first. A tag with a name closes the latest
one of that name, a bare one the latest of all. -/
def close (openTags : List Text) (offset : Nat) (name : Text) (parameters : Option Text) :
    Except MarkupFault (List Text) :=
  let wanted := Text.strip (name.drop 1)
  if wanted.isEmpty then
    match openTags with
    | [] => .error (.nothingToClose offset)
    | _ :: rest => .ok rest
  else
    let wanted := Style.normalize wanted
    if openTags.contains wanted then .ok (openTags.erase wanted)
    else .error (.notOpen (written name parameters) offset)

/-- What some parts show while some styles are open, latest first. -/
def shownWith (openTags : List Text) : List Token → Except MarkupFault Text
  | [] => .ok []
  | .plain t :: rest => do
    let shown ← shownWith openTags rest
    pure (printable (unescape t) ++ shown)
  | .tag offset name parameters :: rest =>
    if name.startsWith "/" then do
      let openTags ← close openTags offset name parameters
      shownWith openTags rest
    else shownWith (Style.normalize name :: openTags) rest

/-- The text that a text with markup shows. -/
def render (t : Text) : Except MarkupFault Text :=
  if t.any (CodePoint.is '[') then shownWith [] (tokens t) else .ok (printable t)

end TypeSketch.Markup
