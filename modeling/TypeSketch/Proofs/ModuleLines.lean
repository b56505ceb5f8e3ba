import TypeSketch.Proofs.WrittenClasses

/-!
# Lines of modules

What the lines of a module say, if only those do that begin with a blank.

* `Text.readLines`: what the lines of a text say, as far as they can be read.
* `Text.Indented`: only a line that begins with a blank says anything.
* `ClassText.readLines_write`: the lines of a class say what its attributes say.
* `TypeHint.readLines_module`: **the lines of a module say what its declarations say.**
* `importedNames`: the names that the first line of a module imports.
-/

namespace TypeSketch

/-! ## Lines of texts -/

namespace Text

variable {α : Type} {read : Text → Option α} {t start : Text}

/-- Cutting at an occurrence of the separator first, and then what is on either side of it. -/
theorem splitOn_append_cons (c : CodePoint) (t x : Text) :
    splitOn c (t ++ c :: x) = splitOn c t ++ splitOn c x := by
  induction t with
  | nil => simp [splitOn]
  | cons d t ih =>
    rw [List.cons_append, splitOn, splitOn]
    by_cases h : d = c
    · rw [if_pos h, if_pos h, ih, List.cons_append]
    · obtain ⟨piece, pieces, hpieces⟩ := List.exists_cons_of_ne_nil (splitOn_ne_nil c t)
      rw [if_neg h, if_neg h, ih, hpieces]
      rfl

theorem behind?_of_head? (hs : start ≠ []) (h : t.head? ≠ start.head?) :
    behind? start t = none := by
  cases hb : behind? start t with
  | none => rfl
  | some rest =>
    obtain ⟨front, ht, hfront⟩ := List.dropPrefix?_eq_some_iff.1 hb
    obtain rfl := eq_of_beq hfront
    refine absurd ?_ h
    rw [ht, List.head?_append_of_ne_nil _ hs]

/-- What the lines of a text say, as far as they can be read. -/
def readLines (read : Text → Option α) (t : Text) : List α := (t.splitOn '\n').filterMap read

/-- Only a line that begins with a blank says anything. -/
def Indented (read : Text → Option α) : Prop :=
  ∀ line, line.head? ≠ some (' ' : CodePoint) → read line = none

theorem readLines_append (read : Text → Option α) (t x : Text) :
    readLines read (t ++ ('\n' : CodePoint) :: x) = readLines read t ++ readLines read x := by
  rw [readLines, splitOn_append_cons, List.filterMap_append]
  rfl

/-- A line that begins with anything but a blank says nothing. -/
theorem Indented.readLines_line (h : Indented read) (hn : ('\n' : CodePoint) ∉ t)
    (ht : t.head? ≠ some (' ' : CodePoint)) : readLines read t = [] := by
  rw [readLines, splitOn_of_not_mem hn]
  simp [h t ht]

theorem Indented.readLines_nil (h : Indented read) : readLines read [] = [] :=
  h.readLines_line List.not_mem_nil nofun

/-- An empty line says nothing. -/
theorem Indented.readLines_newline (h : Indented read) (x : Text) :
    readLines read (('\n' : CodePoint) :: x) = readLines read x := by
  have happend := readLines_append read [] x
  rwa [h.readLines_nil, List.nil_append, List.nil_append] at happend

/-- Some texts with empty lines between them say what each of them says. -/
theorem Indented.readLines_join (h : Indented read) (ts : List Text) :
    readLines read (join "\n\n\n" ts ++ "\n") = ts.flatMap (readLines read) := by
  -- the line behind the last line feed is empty
  have hlast : ∀ t : Text, readLines read (t ++ ("\n" : Text)) = readLines read t := by
    intro t
    have happend := readLines_append read t []
    rwa [h.readLines_nil, List.append_nil] at happend
  induction ts with
  | nil => rw [join, hlast, h.readLines_nil, List.flatMap_nil]
  | cons t ts ih =>
    cases ts with
    | nil => rw [join, hlast, List.flatMap_singleton]
    | cons u ts =>
      have hlines : join "\n\n\n" (t :: u :: ts) ++ ("\n" : Text) =
          t ++ ('\n' : CodePoint) :: (('\n' : CodePoint) :: (('\n' : CodePoint) ::
            (join "\n\n\n" (u :: ts) ++ ("\n" : Text)))) := by
        simp [join, ofString, List.append_assoc]
      rw [hlines, readLines_append, h.readLines_newline, h.readLines_newline, ih, List.flatMap_cons,
        List.flatMap_cons, List.flatMap_cons]

end Text

open Text (Indented readLines)

variable {α : Type} {read : Text → Option α} {d : Declaration}

/-- The lines of a class say what the lines of its attributes say. -/
theorem ClassText.readLines_write {c : ClassText} (hc : c.Plain) (h : Indented read) :
    readLines read c.write = c.attributes.filterMap fun a => read a.write := by
  have hdecorators : c.decorators.filterMap read = [] := by
    refine List.filterMap_eq_nil_iff.2 fun t ht => h t ?_
    obtain ⟨rest, rfl⟩ := List.isPrefixOf_iff_prefix.1 (hc.decorators t ht).1
    exact (by decide : some ('@' : CodePoint) ≠ some ' ')
  have hheader : read (("class " : Text) ++ (c.name ++ c.bases)) = none :=
    h _ (by decide : some ('c' : CodePoint) ≠ some (' ' : CodePoint))
  rw [readLines, splitOn_write hc, List.filterMap_append, hdecorators, List.nil_append,
    List.filterMap_cons_none hheader, List.filterMap_map]
  rfl

namespace Declaration.Identified

/-- No line begins with a blank that begins with the name of a declaration. -/
theorem head?_ne_blank (hd : d.Identified) (x : Text) :
    (d.name ++ x).head? ≠ some (' ' : CodePoint) := by
  have hblank : (' ' : CodePoint) ∉ d.name := hd.not_mem_name (by decide)
  have hname := hd.name
  cases hn : d.name with
  | nil =>
    rw [hn] at hname
    cases hname
  | cons c rest =>
    rw [hn] at hblank
    rintro ⟨⟩
    exact hblank List.mem_cons_self

/-- Another name for a type says nothing. -/
theorem readLines_alias (hd : d.Identified) {t : TypeExpr} (hb : d.body = .alias t)
    (h : Indented read) : readLines read (TypeHint.declareAlias d.name t) = [] := by
  rw [TypeHint.declareAlias, List.append_assoc]
  refine h.readLines_line ?_ (hd.head?_ne_blank _)
  have hnames : ∀ n ∈ t.names, ('\n' : CodePoint) ∉ n := by
    intro n hn
    refine Text.not_mem_of_isIdentifier (hd.uses n ?_) (by decide)
    rwa [Declaration.uses, hb]
  rw [List.mem_append, List.mem_append, not_or, not_or]
  exact ⟨hd.not_mem_name (by decide), by decide, TypeHint.not_mem_spell (by decide) hnames⟩

end Declaration.Identified

/-! ## Modules -/

/-- The names that the first line of a module imports from another one. -/
def importedNames (source content : Text) : List Text :=
  match Text.behind? (("from " : Text) ++ source ++ " import ") (Text.cutAt '\n' content).1 with
  | none => []
  | some names => (names.splitOn ',').map (List.dropWhile (CodePoint.is ' '))

namespace TypeHint

variable {imports : Text} {declarations : List Text}

theorem importedNames_module (h : ('\n' : CodePoint) ∉ imports) (source : Text) :
    importedNames source (module imports declarations) = importedNames source imports := by
  have hfirst : (Text.cutAt '\n' (module imports declarations)).1 = imports := by
    rw [module, List.append_assoc, List.append_assoc, Text.cutAt_append h]
    rintro d ⟨⟩
    rfl
  have himports : (Text.cutAt '\n' imports).1 = imports := by
    have hcut := Text.cutAt_append (x := []) h (by simp)
    rw [List.append_nil] at hcut
    rw [hcut]
  rw [importedNames, importedNames, hfirst, himports]

/-- The lines of a module say what its declarations say. -/
theorem readLines_module (h : Indented read) (hn : ('\n' : CodePoint) ∉ imports)
    (hi : imports.head? ≠ some (' ' : CodePoint)) :
    readLines read (module imports declarations) = declarations.flatMap (readLines read) := by
  have hlines : module imports declarations = imports ++ ('\n' : CodePoint) ::
      (('\n' : CodePoint) :: (('\n' : CodePoint) ::
        (Text.join "\n\n\n" declarations ++ ("\n" : Text)))) := by
    simp [module, Text.ofString, List.append_assoc]
  rw [hlines, Text.readLines_append, h.readLines_line hn hi, h.readLines_newline,
    h.readLines_newline, h.readLines_join, List.nil_append]

end TypeHint

end TypeSketch
