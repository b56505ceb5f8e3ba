import TypeSketch.Proofs.Interface
import TypeSketch.Proofs.Pieces.TypeScript

/-!
# Written modules read back

* `Ty.of`, `Module.of`: what types and declarations mean as a module.
* `Cuts.spell`: **the tokens of a written type**, for words of any kind.
* `tokens_spell`, `tokens_declare`: the tokens of written types and declarations.
* `readType_typeTokens`: reading the tokens of a type gives the type.
* `read_content`: **reading what was written gives the module that was meant.**
-/

namespace TypeSketch.Interface

open TypeScript (continuesName isPlainName propertyKey isBareKey spell fieldLine declare)

/-! ## What declarations mean -/

/-- What a type means. -/
def Ty.of : TypeExpr → Ty
  | .null => .null
  | .text => .string
  | .number => .number
  | .boolean => .boolean
  | .anyObject => .anyRecord
  | .anyList => .array .unknown
  | .list t => .array (.of t)
  | .named n => .ref n
  | .orNull t => .union (.of t) .null

/-- What a field means. -/
def Property.of (f : Field) : Property := ⟨f.key, f.optional, .of f.type⟩

/-- What a body means. -/
def Definition.of : Body → Definition
  | .alias t => .alias (.of t)
  | .record fields => .interface (fields.map .of)

/-- What declarations mean. -/
def Module.of (ds : List Declaration) : Module := ds.map fun d => (d.name, .of d.body)

/-- Whether a key is written without quotes only if it is plain. -/
def PlainIfBare (key : Text) : Prop := isBareKey key = true → isPlainName key = true

instance (key : Text) : Decidable (PlainIfBare key) := inferInstanceAs (Decidable (_ → _))

/-- **A declaration that reads back**: it can be told from its text, and keys without quotes are
plain. -/
structure LegibleDeclaration (d : Declaration) : Prop where
  writable : d.Writable
  plain : ∀ f ∈ d.fields, PlainIfBare f.key

/-- A field that reads back. -/
structure LegibleField (f : Field) : Prop where
  writable : f.Writable
  plain : PlainIfBare f.key

theorem LegibleDeclaration.fields {d : Declaration} (hd : LegibleDeclaration d)
    {fields : List Field} (hb : d.body = .record fields) : ∀ f ∈ fields, LegibleField f := by
  intro f hf
  refine ⟨(hd.writable.fields fields hb).2 f hf, hd.plain f ?_⟩
  rwa [Declaration.fields, hb]

/-! ## Tokens of written texts -/

variable {x : Text} {ts : List Token} {c : CodePoint}

/-- What can follow a word. -/
def Breaks (x : Text) : Prop := ∀ c ∈ x.head?, continuesName c = false

theorem breaks_cons (h : continuesName c = false) (x : Text) : Breaks (c :: x) := by
  rintro d ⟨⟩
  exact h

theorem tokens_blank (hc : c = ' ' ∨ c = '\n') (h : tokens x = some ts) :
    tokens (c :: x) = some ts := by
  rw [tokens.eq_def]
  dsimp only
  rw [if_pos (by simpa using hc), h]

theorem tokens_mark {m : Mark} (hm : Mark.ofCodePoint? c = some m) (h : tokens x = some ts) :
    tokens (c :: x) = some (.mark m :: ts) := by
  -- no sign looks like anything else
  have hall : ∀ p ∈ Mark.all, (CodePoint.ofChar p.1 = ' ' || CodePoint.ofChar p.1 = '\n') = false ∧
      TypeScript.startsName p.1 = false ∧ CodePoint.ofChar p.1 ≠ '"' := by decide
  obtain ⟨p, hp, -⟩ := Option.map_eq_some_iff.1 hm
  obtain ⟨hblank, hname, hquote⟩ := hall p (List.mem_of_find?_eq_some hp)
  obtain rfl : CodePoint.ofChar p.1 = c := by simpa using List.find?_some hp
  rw [tokens.eq_def]
  dsimp only
  rw [if_neg (by simpa using hblank), if_neg (by simpa using hname), if_neg hquote, hm, h]
  rfl

theorem tokens_word {w : Text} (hw : isPlainName w = true) (hx : Breaks x)
    (h : tokens x = some ts) : tokens (w ++ x) = some (.word w :: ts) := by
  cases w with
  | nil => cases hw
  | cons c w =>
    rw [isPlainName, Bool.and_eq_true] at hw
    have hall := List.all_eq_true.1 hw.2
    have hblank : ¬ (c = ' ' || c = '\n') = true := by
      intro hc
      rw [Bool.or_eq_true, decide_eq_true_eq, decide_eq_true_eq] at hc
      rcases hc with rfl | rfl <;> exact absurd hw.1 (by decide)
    have hstop : x.takeWhile continuesName = [] ∧ x.dropWhile continuesName = x := by
      cases x with
      | nil => exact ⟨rfl, rfl⟩
      | cons d x =>
        have hd : ¬ continuesName d = true := by simp [hx d rfl]
        exact ⟨List.takeWhile_cons_of_neg hd, List.dropWhile_cons_of_neg hd⟩
    rw [List.cons_append, tokens.eq_def]
    dsimp only
    rw [if_neg hblank, if_pos hw.1, List.takeWhile_append_of_pos hall,
      List.dropWhile_append_of_pos hall, hstop.1, hstop.2, h, List.append_nil]
    rfl

theorem tokens_literal {t : Text} (ht : t.IsWhole) (h : tokens x = some ts) :
    tokens (Json.quote t ++ x) = some (.literal t :: ts) := by
  rw [Json.quote_append, tokens.eq_def]
  dsimp only
  rw [if_neg (by decide), if_neg (by decide), if_pos rfl, Json.lenientString_escaped ht]
  exact congrArg (Option.map _) h

/-- The tokens of a type. -/
def typeTokens : TypeExpr → List Token
  | .null => [.word "null"]
  | .text => [.word "string"]
  | .number => [.word "number"]
  | .boolean => [.word "boolean"]
  | .anyObject =>
    [.word "Record", .mark .angleOpen, .word "string", .mark .comma, .word "unknown",
      .mark .angleClose]
  | .anyList => [.word "unknown", .mark .bracketOpen, .mark .bracketClose]
  | .list t =>
    if (spell t).contains " | " then
      .mark .parenOpen :: (typeTokens t ++
        [.mark .parenClose, .mark .bracketOpen, .mark .bracketClose])
    else typeTokens t ++ [.mark .bracketOpen, .mark .bracketClose]
  | .named n => [.word n]
  | .orNull t => typeTokens t ++ [.mark .bar, .word "null"]

/-- **A way to cut texts into tokens**, for words of some kind: a blank is passed over, a sign is a
token, and a word is one where nothing follows that it could go on with. -/
structure Cuts (cut : Text → Option (List Token)) (isWord : Text → Bool)
    (goesOn : CodePoint → Bool) : Prop where
  blank : ∀ {x : Text} {ts : List Token}, cut x = some ts → cut (' ' :: x) = some ts
  mark : ∀ {c : CodePoint} {m : Mark} {x : Text} {ts : List Token},
    Mark.ofCodePoint? c = some m → cut x = some ts → cut (c :: x) = some (.mark m :: ts)
  word : ∀ {w x : Text} {ts : List Token}, isWord w = true → (∀ c ∈ x.head?, goesOn c = false) →
    cut x = some ts → cut (w ++ x) = some (.word w :: ts)
  /-- The words of types are words, -/
  plain : ∀ w ∈ (["null", "string", "number", "boolean", "unknown", "Record"] : List Text),
    isWord w = true
  /-- and their signs end one. -/
  ends : ∀ c ∈ (" []()<,>" : Text), goesOn c = false

/-- **The tokens of a written type**, in whatever way they are cut. -/
theorem Cuts.spell {cut : Text → Option (List Token)} {isWord : Text → Bool}
    {goesOn : CodePoint → Bool} (h : Cuts cut isWord goesOn) {t : TypeExpr}
    (ht : ∀ n ∈ t.names, isWord n = true) (hx : ∀ c ∈ x.head?, goesOn c = false)
    (hts : cut x = some ts) : cut (spell t ++ x) = some (typeTokens t ++ ts) := by
  have hends : ∀ c ∈ (" []()<,>" : Text), ∀ x : Text, ∀ d ∈ (c :: x).head?, goesOn d = false := by
    rintro c hc x d ⟨⟩
    exact h.ends c hc
  have hbrackets : ∀ {x : Text} {ts : List Token}, cut x = some ts →
      cut (("[]" : Text) ++ x) = some (.mark .bracketOpen :: .mark .bracketClose :: ts) :=
    fun hts => h.mark (c := '[') rfl (h.mark (c := ']') rfl hts)
  induction t generalizing x ts with
  | null | text | number | boolean => exact h.word (h.plain _ (by decide)) hx hts
  | named n => exact h.word (ht n List.mem_cons_self) hx hts
  | anyList =>
    exact h.word (h.plain "unknown" (by decide)) (hends '[' (by decide) _) (hbrackets hts)
  | anyObject =>
    have hvalue := h.word (h.plain "unknown" (by decide)) (hends '>' (by decide) _)
      (h.mark (c := '>') rfl hts)
    have hcomma := h.mark (c := ',') rfl (h.blank hvalue)
    have hkey := h.word (h.plain "string" (by decide)) (hends ',' (by decide) _) hcomma
    exact h.word (h.plain "Record" (by decide)) (hends '<' (by decide) _)
      (h.mark (c := '<') rfl hkey)
  | list t ih =>
    rw [TypeScript.spell, typeTokens]
    split
    · rw [List.append_assoc, List.append_assoc, List.cons_append, List.append_assoc]
      refine h.mark (c := '(') rfl (ih ht (hends ')' (by decide) _) ?_)
      exact h.mark (c := ')') rfl (hbrackets hts)
    · rw [List.append_assoc, List.append_assoc]
      exact ih ht (hends '[' (by decide) _) (hbrackets hts)
  | orNull t ih =>
    rw [TypeScript.spell, typeTokens, List.append_assoc, List.append_assoc]
    refine ih ht (hends ' ' (by decide) _) ?_
    refine h.blank (h.mark (c := '|') rfl (h.blank ?_))
    exact h.word (h.plain "null" (by decide)) hx hts

theorem cuts_tokens : Cuts tokens isPlainName continuesName where
  blank := tokens_blank (.inl rfl)
  mark := tokens_mark
  word := tokens_word
  plain := by decide
  ends := by decide

theorem tokens_spell {t : TypeExpr} (ht : t.NamesNested) (hx : Breaks x) (h : tokens x = some ts) :
    tokens (spell t ++ x) = some (typeTokens t ++ ts) :=
  cuts_tokens.spell (fun n hn => (ht n hn).plain) hx h

/-! ## Reading types -/

/-- What reading a type leaves in front of its last bar, and behind it. -/
def spine : TypeExpr → Option Ty × Ty
  | .orNull t => (some (.of t), .null)
  | t => (none, .of t)

theorem join_spine (t : TypeExpr) : Ty.join (spine t).1 (spine t).2 = .of t := by
  cases t <;> rfl

theorem spine_of_no_bar {t : TypeExpr} (h : ¬ (spell t).contains " | " = true) :
    spine t = (none, .of t) := by
  cases t with
  | orNull t =>
    have hbar : spell (.orNull t) = spell t ++ ((" | " : Text) ++ "null") := rfl
    refine absurd (Text.contains_iff_infix.2 ?_) h
    rw [hbar, ← List.append_assoc]
    exact List.infix_append _ _ _
  | _ => rfl

/-- A word with the mark of nested types in it denotes a declared type. -/
theorem ofWord_of_marked {w : Text} (h : ("Nested" : Text) <:+: w) : Ty.ofWord w = .ref w := by
  have hne : ∀ k ∈ (["null", "string", "number", "boolean", "unknown"] : List Text), w ≠ k := by
    rintro k hk rfl
    exact absurd h ((by decide +kernel : ∀ k ∈ (["null", "string", "number", "boolean",
      "unknown"] : List Text), ¬ ("Nested" : Text) <:+: k) _ hk)
  simp only [List.forall_mem_cons] at hne
  obtain ⟨h1, h2, h3, h4, h5, -⟩ := hne
  rw [Ty.ofWord, if_neg h1, if_neg h2, if_neg h3, if_neg h4, if_neg h5]

theorem readType_word {outer : List (Option Ty)} {left : Option Ty} {w : Text}
    (h : ts.head? ≠ some (.mark .angleOpen)) :
    readType outer left none (.word w :: ts) = readType outer left (some (.ofWord w)) ts := by
  rw [readType]
  rintro k v rest rfl
  exact h rfl

/-- **Reading the tokens of a type gives the type**, whatever stands around them. -/
theorem readType_typeTokens {t : TypeExpr} (ht : t.NamesNested) (outer : List (Option Ty))
    (h : ts.head? ≠ some (.mark .angleOpen)) :
    readType outer none none (typeTokens t ++ ts) =
      readType outer (spine t).1 (some (spine t).2) ts := by
  induction t generalizing outer ts with
  | null | text | number | boolean => exact readType_word h
  | named n =>
    rw [typeTokens, List.singleton_append, readType_word h, ofWord_of_marked ht.named.marked]
    rfl
  | anyObject => rfl
  | anyList => rfl
  | list t ih =>
    rw [typeTokens]
    split
    · -- the parenthesis sets the outer union aside until the element type is joined
      rw [List.cons_append, List.append_assoc, readType, ih ht _ (by simp)]
      rw [List.cons_append, readType, join_spine]
      rfl
    · -- without a bar in it the element type is the operand that the brackets take
      next hbar =>
      rw [List.append_assoc, ih ht outer (by simp), spine_of_no_bar hbar]
      rfl
  | orNull t ih =>
    rw [typeTokens, List.append_assoc, ih ht outer (by simp)]
    rw [List.cons_append, readType, join_spine, List.singleton_append, readType_word h]
    rfl

theorem readType_of {t : TypeExpr} (ht : t.NamesNested) :
    readType [] none none (typeTokens t) = some (.of t) := by
  have h : readType [] none none (typeTokens t ++ []) = _ := readType_typeTokens ht [] (by simp)
  rw [List.append_nil] at h
  rw [h, readType, join_spine]

/-! ## Reading declarations -/

/-- The token of a key. -/
def keyToken (key : Text) : Token := if isPlainName key then .word key else .literal key

theorem tokens_propertyKey {key : Text} (hk : key.IsWhole) (hp : PlainIfBare key) (hx : Breaks x)
    (h : tokens x = some ts) : tokens (propertyKey key ++ x) = some (keyToken key :: ts) := by
  rw [propertyKey, keyToken]
  by_cases hb : isBareKey key = true
  · rw [if_pos hb, if_pos (hp hb)]
    exact tokens_word (hp hb) hx h
  · have hplain : ¬ isPlainName key = true := fun h => hb (by rw [isBareKey, h, Bool.true_or])
    rw [if_neg hb, if_neg hplain]
    exact tokens_literal hk h

/-- The tokens of a field up to its semicolon. -/
def fieldTokens (f : Field) : List Token :=
  keyToken f.key :: (if f.optional then [.mark .question, .mark .colon] else [.mark .colon]) ++
    typeTokens f.type

theorem tokens_fieldLine {f : Field} (hf : LegibleField f) (h : tokens x = some ts) :
    tokens (fieldLine f ++ x) = some (fieldTokens f ++ .mark .semicolon :: ts) := by
  have hend := tokens_mark (c := ';') rfl h
  have htype := tokens_spell hf.writable.type (breaks_cons (by decide) _) hend
  have hcolon := tokens_mark (c := ':') rfl (tokens_blank (c := ' ') (.inl rfl) htype)
  rw [TypeScript.fieldLine_append, fieldTokens]
  refine tokens_blank (c := ' ') (.inl rfl) (tokens_blank (c := ' ') (.inl rfl) ?_)
  cases f.optional with
  | false =>
    exact tokens_propertyKey hf.writable.key hf.plain (breaks_cons (by decide) _) hcolon
  | true =>
    have hquestion := tokens_mark (c := '?') rfl hcolon
    exact tokens_propertyKey hf.writable.key hf.plain (breaks_cons (by decide) _) hquestion

theorem readProperty_fieldTokens {f : Field} (hf : LegibleField f) :
    readProperty (fieldTokens f) = some (.of f) := by
  have htype := readType_of hf.writable.type
  rw [fieldTokens, keyToken]
  cases hk : isPlainName f.key <;> cases ho : f.optional <;>
    simp [readProperty, htype, Property.of, ho]

/-- The tokens of the lines of an interface. -/
def lineTokens (fields : List Field) : List Token :=
  fields.flatMap fun f => fieldTokens f ++ [.mark .semicolon]

theorem lineTokens_cons (f : Field) (fields : List Field) :
    lineTokens (f :: fields) = fieldTokens f ++ .mark .semicolon :: lineTokens fields := by
  rw [lineTokens, List.flatMap_cons, List.append_assoc]
  rfl

/-- The tokens of a declaration up to the sign that ends it. -/
def definitionTokens (d : Declaration) : List Token :=
  match d.body with
  | .alias t => .word "type" :: .word d.name :: .mark .equals :: typeTokens t
  | .record fields =>
    .word "interface" :: .word d.name :: .mark .braceOpen :: lineTokens fields

/-- The sign that ends a declaration. -/
def closing (d : Declaration) : Mark :=
  match d.body with
  | .alias _ => .semicolon
  | .record _ => .braceClose

theorem tokens_fieldLines {fields : List Field} (hf : ∀ f ∈ fields, LegibleField f)
    (h : tokens x = some ts) :
    tokens (fields.flatMap (fun f => ("\n" : Text) ++ fieldLine f) ++ x) =
      some (lineTokens fields ++ ts) := by
  induction fields with
  | nil => exact h
  | cons f rest ih =>
    rw [List.forall_mem_cons] at hf
    rw [List.flatMap_cons, lineTokens_cons, List.append_assoc, List.append_assoc,
      List.append_assoc]
    exact tokens_blank (c := '\n') (.inr rfl) (tokens_fieldLine hf.1 (ih hf.2))

/-- **The tokens of a written declaration.** -/
theorem tokens_declare {d : Declaration} (hd : LegibleDeclaration d) (h : tokens x = some ts) :
    tokens (declare d ++ x) = some (definitionTokens d ++ .mark (closing d) :: ts) := by
  have hname {y : Text} {us : List Token} (hy : tokens y = some us) :
      tokens (d.name ++ (' ' : CodePoint) :: y) = some (.word d.name :: us) :=
    tokens_word hd.writable.name (breaks_cons (by decide) _) (tokens_blank (.inl rfl) hy)
  rw [definitionTokens, closing]
  cases hb : d.body with
  | «alias» t =>
    rw [TypeScript.declare_of_alias hb]
    have htype := tokens_spell (hd.writable.type t hb) (breaks_cons (by decide) _)
      (tokens_mark (c := ';') rfl h)
    have hequals := tokens_mark (c := '=') rfl (tokens_blank (c := ' ') (.inl rfl) htype)
    exact tokens_word (w := "type") (by decide) (breaks_cons (by decide) _)
      (tokens_blank (c := ' ') (.inl rfl) (hname hequals))
  | record fields =>
    rw [TypeScript.declare_of_record hb]
    have hlast := tokens_blank (c := '\n') (.inr rfl) (tokens_mark (c := '\x7d') rfl h)
    have hopen := tokens_mark (c := '\x7b') rfl (tokens_fieldLines (hd.fields hb) hlast)
    exact tokens_word (w := "interface") (by decide) (breaks_cons (by decide) _)
      (tokens_blank (c := ' ') (.inl rfl) (hname hopen))

/-! ## Cutting at signs -/

/-- The tokens of a type are no semicolons and no braces. -/
theorem mark_not_mem_typeTokens (t : TypeExpr) {m : Mark}
    (hm : m ∈ [Mark.semicolon, .colon, .question, .equals, .braceOpen, .braceClose]) :
    Token.mark m ∉ typeTokens t := by
  have hout : m ∉ [Mark.parenOpen, .parenClose, .bracketOpen, .bracketClose, .angleOpen,
      .angleClose, .bar, .comma] := by
    revert m
    decide
  simp only [List.mem_cons, List.not_mem_nil, or_false, not_or] at hout
  induction t with
  | list t ih =>
    rw [typeTokens]
    split <;> simp [ih, hout]
  | orNull t ih => simp [typeTokens, ih, hout]
  | _ => simp [typeTokens, hout]

theorem mark_not_mem_fieldTokens (f : Field) {m : Mark}
    (hm : m ∈ [Mark.semicolon, .braceOpen, .braceClose]) : Token.mark m ∉ fieldTokens f := by
  have hout : m ∉ [Mark.question, .colon] := by
    revert m
    decide
  have htype := mark_not_mem_typeTokens f.type (m := m) (by clear hout; revert m; decide)
  simp only [List.mem_cons, List.not_mem_nil, or_false, not_or] at hout
  have hkey : Token.mark m ≠ keyToken f.key := by
    rw [keyToken]
    split <;> exact Token.noConfusion
  rw [fieldTokens]
  cases f.optional <;> simp [htype, hkey, hout]

theorem readProperties_append {passed us : List Token} (h : Token.mark .semicolon ∉ us) :
    readProperties passed (us ++ ts) = readProperties (passed ++ us) ts := by
  induction us generalizing passed with
  | nil => rw [List.nil_append, List.append_nil]
  | cons u us ih =>
    rw [List.mem_cons, not_or] at h
    rw [List.cons_append, readProperties, ih h.2, List.append_assoc, List.singleton_append]
    rintro rfl
    exact h.1 rfl

/-- Reading properties gives what the fields mean. -/
theorem readProperties_fields {fields : List Field} (hf : ∀ f ∈ fields, LegibleField f) :
    readProperties [] (lineTokens fields) = some (fields.map .of) := by
  induction fields with
  | nil => rfl
  | cons f rest ih =>
    rw [List.forall_mem_cons] at hf
    rw [lineTokens_cons, readProperties_append (mark_not_mem_fieldTokens f (by decide)),
      List.nil_append, readProperties, readProperty_fieldTokens hf.1, ih hf.2]
    rfl

/-- Reading a declaration gives what it means. -/
theorem readDefinition_definitionTokens {d : Declaration} (hd : LegibleDeclaration d) :
    readDefinition (definitionTokens d) = some (d.name, .of d.body) := by
  rw [definitionTokens]
  cases hb : d.body with
  | «alias» t =>
    rw [readDefinition, if_pos rfl, readType_of (hd.writable.type t hb)]
    rfl
  | record fields =>
    rw [readDefinition, if_pos rfl, readProperties_fields (hd.fields hb)]
    rfl

theorem readDefinitions_outside {passed us : List Token} (h : Token.mark .semicolon ∉ us)
    (hopen : Token.mark .braceOpen ∉ us) :
    readDefinitions false passed (us ++ ts) = readDefinitions false (passed ++ us) ts := by
  induction us generalizing passed with
  | nil => rw [List.nil_append, List.append_nil]
  | cons u us ih =>
    rw [List.mem_cons, not_or] at h hopen
    rw [List.cons_append, readDefinitions, decide_eq_false (Ne.symm hopen.1), Bool.or_false,
      ih h.2 hopen.2, List.append_assoc, List.singleton_append]
    · simp
    · rintro - rfl
      exact h.1 rfl

theorem readDefinitions_inside {passed us : List Token} (h : Token.mark .braceClose ∉ us) :
    readDefinitions true passed (us ++ ts) = readDefinitions true (passed ++ us) ts := by
  induction us generalizing passed with
  | nil => rw [List.nil_append, List.append_nil]
  | cons u us ih =>
    rw [List.mem_cons, not_or] at h
    rw [List.cons_append, readDefinitions, Bool.true_or, ih h.2, List.append_assoc,
      List.singleton_append]
    · rintro - rfl
      exact h.1 rfl
    · simp

/-- Reading goes on behind a declaration. -/
theorem readDefinitions_declaration {d : Declaration} (hd : LegibleDeclaration d) :
    readDefinitions false [] (definitionTokens d ++ .mark (closing d) :: ts) =
      (readDefinitions false [] ts).map ((d.name, .of d.body) :: ·) := by
  have hread := readDefinition_definitionTokens hd
  rw [definitionTokens] at hread ⊢
  rw [closing]
  cases hb : d.body with
  | «alias» t =>
    rw [hb] at hread
    rw [readDefinitions_outside (by simp [mark_not_mem_typeTokens])
      (by simp [mark_not_mem_typeTokens]), List.nil_append, readDefinitions, hread]
    cases readDefinitions false [] ts <;> rfl
  | record fields =>
    rw [hb] at hread
    have hclose : Token.mark .braceClose ∉ lineTokens fields := by
      simp [lineTokens, mark_not_mem_fieldTokens]
    have hskip : readDefinitions false []
        (.word "interface" :: .word d.name :: .mark .braceOpen :: lineTokens fields ++
          .mark .braceClose :: ts) =
        readDefinitions true
          (.word "interface" :: .word d.name :: .mark .braceOpen :: lineTokens fields)
          (.mark .braceClose :: ts) :=
      -- what was passed before are the three tokens of the head
      @readDefinitions_inside _ [.word "interface", .word d.name, .mark .braceOpen] _ hclose
    rw [hskip, readDefinitions, hread]
    cases readDefinitions false [] ts <;> rfl

theorem readDefinitions_declarations {ds : List Declaration} (hd : ∀ d ∈ ds, LegibleDeclaration d) :
    readDefinitions false [] (ds.flatMap fun d => definitionTokens d ++ [.mark (closing d)]) =
      some (.of ds) := by
  induction ds with
  | nil => rfl
  | cons d rest ih =>
    rw [List.forall_mem_cons] at hd
    rw [List.flatMap_cons, List.append_assoc, List.singleton_append,
      readDefinitions_declaration hd.1, ih hd.2]
    rfl

theorem tokens_declarations {ds : List Declaration} (hd : ∀ d ∈ ds, LegibleDeclaration d)
    (hne : ds ≠ []) : tokens (TypeScript.content ds) =
      some (ds.flatMap fun d => definitionTokens d ++ [.mark (closing d)]) := by
  have hnil : tokens [] = some [] := by rw [tokens.eq_def]
  have hend : tokens ("\n" : Text) = some [] := tokens_blank (c := '\n') (.inr rfl) hnil
  have hrow : ∀ ds : List Declaration, (∀ d ∈ ds, LegibleDeclaration d) →
      tokens (ds.flatMap (fun d => ("\n\n" : Text) ++ declare d) ++ "\n") =
        some (ds.flatMap fun d => definitionTokens d ++ [.mark (closing d)]) := by
    intro ds hd
    induction ds with
    | nil => exact hend
    | cons d rest ih =>
      rw [List.forall_mem_cons] at hd
      rw [List.flatMap_cons, List.flatMap_cons, List.append_assoc, List.append_assoc,
        List.append_assoc, List.singleton_append]
      refine tokens_blank (c := '\n') (.inr rfl) (tokens_blank (c := '\n') (.inr rfl) ?_)
      exact tokens_declare hd.1 (ih hd.2)
  cases ds with
  | nil => exact absurd rfl hne
  | cons d rest =>
    rw [List.forall_mem_cons] at hd
    rw [TypeScript.content, List.map_cons, Text.join_cons, List.flatMap_map, List.flatMap_cons,
      List.append_assoc, List.append_assoc, List.singleton_append]
    exact tokens_declare hd.1 (hrow rest hd.2)

/-- **Reading what was written gives the module that was meant.** -/
theorem read_content {ds : List Declaration} (hd : ∀ d ∈ ds, LegibleDeclaration d) (hne : ds ≠ []) :
    Module.read (TypeScript.content ds) = some (.of ds) := by
  rw [Module.read, tokens_declarations hd hne, Option.bind_some, readDefinitions_declarations hd]

end TypeSketch.Interface
