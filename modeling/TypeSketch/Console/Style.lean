import TypeSketch.Text.Blank

/-!
# Names of console styles

A markup tag names a style by its attributes and colours. Two names that say the same thing open
and close one another.

* `Style.normalize`: the standard form of a name, its attributes first and in a fixed order.
-/

namespace TypeSketch.Style

/-- The colours that have a name. -/
def colourNames : List Text :=
  ["black", "red", "green", "yellow", "blue", "magenta", "cyan", "white", "bright_black",
    "bright_red", "bright_green", "bright_yellow", "bright_blue", "bright_magenta",
    "bright_cyan", "bright_white", "grey0", "gray0", "navy_blue", "dark_blue", "blue3",
    "blue1", "dark_green", "deep_sky_blue4", "dodger_blue3", "dodger_blue2", "green4",
    "spring_green4", "turquoise4", "deep_sky_blue3", "dodger_blue1", "green3", "spring_green3",
    "dark_cyan", "light_sea_green", "deep_sky_blue2", "deep_sky_blue1", "spring_green2",
    "cyan3", "dark_turquoise", "turquoise2", "green1", "spring_green1", "medium_spring_green",
    "cyan2", "cyan1", "dark_red", "deep_pink4", "purple4", "purple3", "blue_violet", "orange4",
    "grey37", "gray37", "medium_purple4", "slate_blue3", "royal_blue1", "chartreuse4",
    "dark_sea_green4", "pale_turquoise4", "steel_blue", "steel_blue3", "cornflower_blue",
    "chartreuse3", "cadet_blue", "sky_blue3", "steel_blue1", "pale_green3", "sea_green3",
    "aquamarine3", "medium_turquoise", "chartreuse2", "sea_green2", "sea_green1",
    "aquamarine1", "dark_slate_gray2", "dark_magenta", "dark_violet", "purple", "light_pink4",
    "plum4", "medium_purple3", "slate_blue1", "yellow4", "wheat4", "grey53", "gray53",
    "light_slate_grey", "light_slate_gray", "medium_purple", "light_slate_blue",
    "dark_olive_green3", "dark_sea_green", "light_sky_blue3", "sky_blue2", "dark_sea_green3",
    "dark_slate_gray3", "sky_blue1", "chartreuse1", "light_green", "pale_green1",
    "dark_slate_gray1", "red3", "medium_violet_red", "magenta3", "dark_orange3", "indian_red",
    "hot_pink3", "medium_orchid3", "medium_orchid", "medium_purple2", "dark_goldenrod",
    "light_salmon3", "rosy_brown", "grey63", "gray63", "medium_purple1", "gold3", "dark_khaki",
    "navajo_white3", "grey69", "gray69", "light_steel_blue3", "light_steel_blue", "yellow3",
    "dark_sea_green2", "light_cyan3", "light_sky_blue1", "green_yellow", "dark_olive_green2",
    "dark_sea_green1", "pale_turquoise1", "deep_pink3", "magenta2", "hot_pink2", "orchid",
    "medium_orchid1", "orange3", "light_pink3", "pink3", "plum3", "violet", "light_goldenrod3",
    "tan", "misty_rose3", "thistle3", "plum2", "khaki3", "light_goldenrod2", "light_yellow3",
    "grey84", "gray84", "light_steel_blue1", "yellow2", "dark_olive_green1", "honeydew2",
    "light_cyan1", "red1", "deep_pink2", "deep_pink1", "magenta1", "orange_red1",
    "indian_red1", "hot_pink", "dark_orange", "salmon1", "light_coral", "pale_violet_red1",
    "orchid2", "orchid1", "orange1", "sandy_brown", "light_salmon1", "light_pink1", "pink1",
    "plum1", "gold1", "navajo_white1", "misty_rose1", "thistle1", "yellow1",
    "light_goldenrod1", "khaki1", "wheat1", "cornsilk1", "grey100", "gray100", "grey3",
    "gray3", "grey7", "gray7", "grey11", "gray11", "grey15", "gray15", "grey19", "gray19",
    "grey23", "gray23", "grey27", "gray27", "grey30", "gray30", "grey35", "gray35", "grey39",
    "gray39", "grey42", "gray42", "grey46", "gray46", "grey50", "gray50", "grey54", "gray54",
    "grey58", "gray58", "grey62", "gray62", "grey66", "gray66", "grey70", "gray70", "grey74",
    "gray74", "grey78", "gray78", "grey82", "gray82", "grey85", "gray85", "grey89", "gray89",
    "grey93", "gray93"].map Text.ofString

/-- The attributes, in the order of the standard form. -/
def attributeNames : List Text :=
  ["bold", "dim", "italic", "underline", "blink", "blink2", "reverse", "conceal", "strike",
    "underline2", "frame", "encircle", "overline"].map Text.ofString

/-- The short names of attributes. -/
def shortNames : List (Text × Text) :=
  [("d", "dim"), ("b", "bold"), ("i", "italic"), ("u", "underline"), ("r", "reverse"),
    ("c", "conceal"), ("s", "strike"), ("uu", "underline2"), ("o", "overline")]

/-- The attribute of a word. -/
def attribute? (word : Text) : Option Text :=
  match shortNames.find? fun p => p.1 = word with
  | some p => some p.2
  | none => if attributeNames.contains word then some word else none

/-- What stands between a start and an end, if a text begins and ends so. -/
def between? (start tail t : Text) : Option Text :=
  if t.startsWith start && t.endsWith tail && start.length + tail.length ≤ t.length then
    some ((t.drop start.length).take (t.length - start.length - tail.length))
  else none

/-- Whether a text is a number up to 255. -/
def isByte (t : Text) : Bool :=
  let t := t.strip
  !t.isEmpty && t.all CodePoint.isDigit && Text.natOfDigits t ≤ 255

/-- Whether a word in lower case is a colour. -/
def isColour (word : Text) : Bool :=
  word = Text.ofString "default" || colourNames.contains word ||
    (word.length = 7 && word.startsWith "#" && (word.drop 1).all fun c => c.hexVal?.isSome) ||
    (match between? "color(" ")" word with
      | some n => n.length ≤ 3 && isByte n
      | none => false) ||
    (match between? "rgb(" ")" word with
      | some list =>
        let parts := list.splitOn ','
        parts.length = 3 && parts.all isByte
      | none => false)

/-- What the words of a name say so far. -/
structure Reading where
  /-- The attributes that are set or unset, the latest last. -/
  attributes : List (Text × Bool) := []
  colour : Option Text := none
  background : Option Text := none
  link : Option Text := none

/-- The reading of some words, if they all say something. -/
def Reading.ofWords (r : Reading) : List Text → Option Reading
  | [] => some r
  | word :: rest =>
    let lower := word.toLower
    if lower = Text.ofString "on" then
      match rest with
      | colour :: rest =>
        if isColour colour.toLower then
          Reading.ofWords { r with background := some colour.toLower } rest
        else none
      | [] => none
    else if lower = Text.ofString "not" then
      match rest with
      | word :: rest =>
        match attribute? word with
        | some a => Reading.ofWords { r with attributes := (a, false) :: r.attributes } rest
        | none => none
      | [] => none
    else if lower = Text.ofString "link" then
      match rest with
      | target :: rest => Reading.ofWords { r with link := some target } rest
      | [] => none
    else match attribute? lower with
      | some a => Reading.ofWords { r with attributes := (a, true) :: r.attributes } rest
      | none =>
        if isColour lower then Reading.ofWords { r with colour := some lower } rest else none

/-- The standard form of a reading. -/
def Reading.text (r : Reading) : Text :=
  let attributes := attributeNames.filterMap fun name =>
    match r.attributes.find? fun a => a.1 = name with
    | some (_, true) => some name
    | some (_, false) => some (("not " : Text) ++ name)
    | none => none
  let background := r.background.toList.flatMap fun c => [("on" : Text), c]
  let link := r.link.toList.flatMap fun target => [("link" : Text), target]
  let words := attributes ++ r.colour.toList ++ background ++ link
  if words.isEmpty then "none" else Text.join " " words

/-- The words of a text: its longest runs without white space. -/
def words (t : Text) : List Text :=
  (t.foldr (fun c acc =>
    if c.isBlank then [] :: acc
    else match acc with
      | w :: rest => (c :: w) :: rest
      | [] => [[c]]) [[]]).filter fun w => !w.isEmpty

/-- The standard form of the name of a style. A name that says nothing known is only stripped and
put into lower case. -/
def normalize (name : Text) : Text :=
  if name.strip = Text.ofString "none" || name.isEmpty then "none"
  else match Reading.ofWords {} (words name) with
    | some r => r.text
    | none => name.strip.toLower

end TypeSketch.Style
