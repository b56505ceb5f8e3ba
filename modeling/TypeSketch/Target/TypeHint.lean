import TypeSketch.Declaration
import TypeSketch.Text.Letter

/-!
# TypeHints and attribute names of classes

What the targets that write Python classes have in common.

* `TypeHint.spell`: the text of a type.
* `TypeHint.isPlainIdentifier`: whether a key can be written as a name.
* `AttributeRules.name`: the attribute name of a key.
* `freshen_not_mem`: a freshened name is not taken.
-/

namespace TypeSketch

namespace TypeHint

/-- The words that cannot be names. -/
def keywords : List Text :=
  ["False", "None", "True", "and", "as", "assert", "async", "await", "break", "class", "continue",
    "def", "del", "elif", "else", "except", "finally", "for", "from", "global", "if", "import",
    "in", "is", "lambda", "nonlocal", "not", "or", "pass", "raise", "return", "try", "while",
    "with", "yield"].map Text.ofString

/-- Whether a text is a keyword. -/
def isKeyword (t : Text) : Bool := keywords.contains t

/-- Whether a key can be written as a name. -/
def isPlainIdentifier (key : Text) : Bool := key.isIdentifier && !isKeyword key

/-- The text of a type. -/
def spell : TypeExpr → Text
  | .null => "None"
  | .text => "str"
  | .number => "float"
  | .boolean => "bool"
  | .anyObject => "dict"
  | .anyList => "list"
  | .list t => ("list[" : Text) ++ spell t ++ "]"
  | .named name => name
  | .orNull t => spell t ++ " | None"

/-- The text of another name for a type. -/
def declareAlias (name : Text) (t : TypeExpr) : Text := name ++ " = " ++ spell t

/-- The text of a module: its imports and its declarations, two empty lines apart. -/
def module (imports : Text) (declarations : List Text) : Text :=
  imports ++ "\n\n\n" ++ Text.join "\n\n\n" declarations ++ "\n"

/-- The types that class bodies refer to; an attribute of that name would hide them. -/
def reservedNames : List Text := ["str", "float", "bool", "dict", "list"].map Text.ofString

end TypeHint

/-- A name with as many underscores behind it as it takes to be none of the taken ones. -/
def freshen (taken : List Text) (name : Text) : Text :=
  if _h : name ∈ taken then freshen (taken.erase name) (name ++ "_") else name
termination_by taken.length
decreasing_by
  rw [List.length_erase_of_mem _h]
  have := List.length_pos_of_mem _h
  omega

/-- A freshened name is the name with underscores behind it. -/
theorem freshen_eq (taken : List Text) (name : Text) :
    ∃ k, freshen taken name = name ++ Text.times k '_' := by
  fun_induction freshen taken name with
  | case1 taken name h ih =>
    obtain ⟨k, hk⟩ := ih
    refine ⟨k + 1, ?_⟩
    rw [hk, List.append_assoc]
    rfl
  | case2 => exact ⟨0, by simp [Text.times]⟩

/-- **A freshened name is not taken.** -/
theorem freshen_not_mem (taken : List Text) (name : Text) : freshen taken name ∉ taken := by
  fun_induction freshen taken name with
  | case1 taken name h ih =>
    intro hmem
    obtain ⟨k, hk⟩ := freshen_eq (taken.erase name) (name ++ "_")
    have hne : freshen (taken.erase name) (name ++ "_") ≠ name := by
      intro he
      have hl := congrArg List.length (hk.symm.trans he)
      have h1 : (Text.ofString "_").length = 1 := rfl
      simp only [List.length_append, h1] at hl
      omega
    exact ih ((List.mem_erase_of_ne hne).2 hmem)
  | case2 taken name h => exact h

/-- What attribute names have to respect. -/
structure AttributeRules where
  /-- Whether a name may begin with an underscore. -/
  leadingUnderscore : Bool := true
  /-- Names that may not be used. -/
  reserved : List Text := []
  /-- Beginnings that may not be used. -/
  reservedStarts : List Text := []

namespace AttributeRules

/-- A key with an underscore for everything that is not a word character. -/
def words (key : Text) : Text := key.map fun c => if c.isWord then c else '_'

/-- The start of the attribute name of a key: the words of the key, without leading underscores if
they are not allowed. -/
def stem (rules : AttributeRules) (key : Text) : Text :=
  if rules.leadingUnderscore then words key else (words key).dropWhile (CodePoint.is '_')

/-- A stem that is no identifier, or begins in a way that may not be used, is put behind `field_`.
-/
def qualified (rules : AttributeRules) (stem : Text) : Text :=
  if stem.isIdentifier && !(rules.reservedStarts.any fun start => stem.startsWith start) then stem
  else ("field_" : Text) ++ stem

/-- A name that is a keyword or may not be used gets an underscore. -/
def allowed (rules : AttributeRules) (name : Text) : Text :=
  if TypeHint.isKeyword name || rules.reserved.contains name then name ++ "_" else name

/-- The attribute name of a key, none of the taken ones. -/
def name (rules : AttributeRules) (taken : List Text) (key : Text) : Text :=
  freshen taken (rules.allowed (rules.qualified (rules.stem key)))

/-- The attribute names of some keys in a row, each none of the taken ones and those before it,
latest first. -/
def names (rules : AttributeRules) (taken : List Text) : List Text → List Text × List Text
  | [] => ([], taken)
  | key :: rest =>
    let name := rules.name taken key
    let (names, taken) := names rules (name :: taken) rest
    (name :: names, taken)

/-- The attribute names of some fields. -/
def attributes (rules : AttributeRules) (fields : List Field) : List (Text × Field) :=
  (rules.names [] (fields.map (·.key))).1.zip fields

end AttributeRules

end TypeSketch
