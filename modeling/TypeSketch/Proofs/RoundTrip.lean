import TypeSketch.Proofs.Steps
import TypeSketch.Proofs.Strings

/-!
# Values read back

A portable value that is written on one line is read back by either dialect, wherever it stands. The
lenient dialect must have room left for its nesting.

* `memberName_quote`: the name of a member is read up to its value.
* `run_elements`, `run_members`: the loop reads elements and members one after another.
* `run_compact`: **the loop reads a written value as that value.**
* `decode_compact`: **decoding a written value gives it back**, with white space behind it or not.
-/

namespace TypeSketch

namespace Entries

variable {α : Type} {es : Entries α}

theorem put_of_not_mem {name : Text} (h : name ∉ names es) (a : α) :
    put es name a = es ++ [(name, a)] := by
  induction es with
  | nil => rfl
  | cons e es ih =>
    rw [names, List.map_cons, List.mem_cons, not_or] at h
    rw [put, if_neg (Ne.symm h.1), ih h.2]
    rfl

/-- Entries of different names stay as they are. -/
theorem ofList_of_nodup (h : (names es).Nodup) : ofList es = es := by
  have hbehind : ∀ ps front : Entries α, (names (front ++ ps)).Nodup →
      ps.foldl (fun es p => put es p.1 p.2) front = front ++ ps := by
    intro ps
    induction ps with
    | nil => exact fun front _ => (List.append_nil front).symm
    | cons p ps ih =>
      intro front h
      have hmem : p.1 ∉ names front := by
        rw [names, List.map_append, List.map_cons, List.nodup_append] at h
        exact fun hp => h.2.2 _ hp _ List.mem_cons_self rfl
      rw [List.foldl_cons, put_of_not_mem hmem, ih _ (by rwa [List.append_assoc]),
        List.append_assoc]
      rfl
  exact hbehind es [] h

end Entries

namespace Json

variable {d : Dialect} {frames : List Frame} {c : CodePoint} {v : Value} {name rest : Text}

/-! ## Between the values -/

theorem skipBlanks_space (hc : 0x20 < c.val) (rest : Text) :
    d.skipBlanks (' ' :: c :: rest) = c :: rest := by
  have hspace : d.isBlank ' ' = true := by cases d <;> decide
  have hskip : d.skipBlanks (' ' :: c :: rest) = d.skipBlanks (c :: rest) :=
    List.dropWhile_cons_of_pos hspace
  rw [hskip, skipBlanks_visible hc]

theorem skipBlanks_compact (hv : v.Portable) (rest : Text) :
    d.skipBlanks (compact v ++ rest) = compact v ++ rest ∧
      d.skipBlanks (' ' :: (compact v ++ rest)) = compact v ++ rest := by
  obtain ⟨c, tail, hc, hlow, -⟩ := compact_begins hv
  rw [hc, List.cons_append]
  exact ⟨skipBlanks_visible hlow _, skipBlanks_space hlow _⟩

/-- The name of a member is read up to its value. -/
theorem memberName_quote (hname : ∀ c ∈ name, c.isSurrogate = false) (hv : v.Portable)
    (rest : Text) :
    memberName d (compactMember (name, v) ++ rest) = .ok (name, compact v ++ rest) := by
  have hcolon : d.skipBlanks (Text.ofString ": " ++ (compact v ++ rest)) =
      (':' : CodePoint) :: ' ' :: (compact v ++ rest) := skipBlanks_visible (by decide) _
  rw [compactMember, List.append_assoc, List.append_assoc, quote_append, memberName, if_pos rfl,
    string_escaped d hname]
  simp only [hcolon, if_true, (skipBlanks_compact hv rest).2]

/-! ## Behind a value -/

theorem closing_bracket (done : List Value) (v : Value) (rest : Text) :
    closing d (.array done) v (']' :: rest) = .ok (.inl (.array (v :: done).reverse, rest)) := by
  unfold closing
  rw [skipBlanks_visible (by decide)]
  rfl

theorem closing_brace (done : List (Text × Value)) (v : Value) (rest : Text) :
    closing d (.object done name) v ('\x7d' :: rest) =
      .ok (.inl (.object (Entries.ofList ((name, v) :: done).reverse), rest)) := by
  unfold closing
  rw [skipBlanks_visible (by decide)]
  rfl

theorem closing_comma (done : List Value) (v : Value) {w : Value} (hw : w.Portable) (rest : Text) :
    closing d (.array done) v ((", " : Text) ++ (compact w ++ rest)) =
      .ok (.inr (.array (v :: done), compact w ++ rest)) := by
  have hcomma : (", " : Text) ++ (compact w ++ rest) =
      (',' : CodePoint) :: ' ' :: (compact w ++ rest) := rfl
  unfold closing
  rw [hcomma, skipBlanks_visible (by decide)]
  simp only [(skipBlanks_compact hw rest).2]
  rfl

theorem closing_comma_member (done : List (Text × Value)) (v : Value) {m : Text × Value}
    (hname : ∀ c ∈ m.1, c.isSurrogate = false) (hm : m.2.Portable) (rest : Text) :
    closing d (.object done name) v ((", " : Text) ++ (compactMember m ++ rest)) =
      .ok (.inr (.object ((name, v) :: done) m.1, compact m.2 ++ rest)) := by
  have hcomma : (", " : Text) ++ (compactMember m ++ rest) =
      (',' : CodePoint) :: ' ' :: (compactMember m ++ rest) := rfl
  have hquote : d.skipBlanks (' ' :: (compactMember m ++ rest)) = compactMember m ++ rest := by
    rw [compactMember, List.append_assoc, quote_append]
    exact skipBlanks_space (by decide) _
  unfold closing
  rw [hcomma, skipBlanks_visible (by decide)]
  simp only [hquote, memberName_quote hname hm]
  rfl

/-! ## Values -/

/-- Whether a dialect has room for some nesting inside of some open arrays and objects. -/
def HasRoom (d : Dialect) (openNow nesting : Nat) : Prop :=
  ∀ most ∈ d.maxNesting, openNow + nesting ≤ most

theorem HasRoom.mono {openNow openNow' nesting nesting' : Nat} (h : HasRoom d openNow nesting)
    (hle : openNow' + nesting' ≤ openNow + nesting) : HasRoom d openNow' nesting' :=
  fun most hmost => Nat.le_trans hle (h most hmost)

theorem HasRoom.mayNest {openNow nesting : Nat} (h : HasRoom d openNow (nesting + 1)) :
    d.mayNest openNow = true := by
  unfold Dialect.mayNest
  cases hmost : d.maxNesting with
  | none => rfl
  | some most =>
    have hle := h most hmost
    rw [decide_eq_true_eq]
    omega

/-- The loop reads a written value as that value, whatever stands in front of it and behind it. -/
def ReadsBack (d : Dialect) (v : Value) : Prop :=
  ∀ frames rest, HasRoom d (List.length frames) v.nesting → EndsNumber rest →
    run d frames .before (compact v ++ rest) = run d frames (.behind v) rest

theorem endsNumber_comma (rest : Text) : EndsNumber ((", " : Text) ++ rest) := .cons (by decide)

theorem endsNumber_bracket (rest : Text) : EndsNumber (']' :: rest) := .cons (by decide)

theorem endsNumber_brace (rest : Text) : EndsNumber ('\x7d' :: rest) := .cons (by decide)

/-- The loop reads the elements of an array from some element on. -/
theorem run_elements {vs : List Value} (h : ∀ w ∈ v :: vs, w.Portable ∧ ReadsBack d w)
    (hroom : ∀ w ∈ v :: vs, HasRoom d (frames.length + 1) w.nesting) (done : List Value)
    (rest : Text) :
    run d (.array done :: frames) .before (compact v ++ ((vs.flatMap fun w =>
        (", " : Text) ++ compact w) ++ (']' : CodePoint) :: rest)) =
      run d frames (.behind (.array (done.reverse ++ v :: vs))) rest := by
  induction vs generalizing v done with
  | nil =>
    have hv := (h v List.mem_cons_self).2 (.array done :: frames)
    rw [List.flatMap_nil, List.nil_append, hv _ (hroom v List.mem_cons_self)
      (endsNumber_bracket rest), run_behind, closing_bracket, goOn, List.reverse_cons]
  | cons w vs ih =>
    have hv := (h v List.mem_cons_self).2 (.array done :: frames)
    have hw := h w (List.mem_cons_of_mem _ List.mem_cons_self)
    rw [List.flatMap_cons, List.append_assoc, List.append_assoc,
      hv _ (hroom v List.mem_cons_self) (endsNumber_comma _), run_behind, closing_comma _ _ hw.1,
      goOn, ih (fun u hu => h u (List.mem_cons_of_mem _ hu))
        (fun u hu => hroom u (List.mem_cons_of_mem _ hu)),
      List.reverse_cons, List.append_assoc, List.singleton_append]

/-- The loop reads the members of an object from behind the name of some member on. -/
theorem run_members {ms : List (Text × Value)}
    (hnames : ∀ m ∈ ms, ∀ c ∈ m.1, c.isSurrogate = false)
    (h : ∀ m ∈ (name, v) :: ms, m.2.Portable ∧ ReadsBack d m.2)
    (hroom : ∀ m ∈ (name, v) :: ms, HasRoom d (frames.length + 1) m.2.nesting)
    (done : List (Text × Value)) (rest : Text) :
    run d (.object done name :: frames) .before (compact v ++ ((ms.flatMap fun m =>
        (", " : Text) ++ compactMember m) ++ ('\x7d' : CodePoint) :: rest)) =
      run d frames (.behind (.object (Entries.ofList (done.reverse ++ (name, v) :: ms)))) rest := by
  induction ms generalizing name v done with
  | nil =>
    have hv := (h _ List.mem_cons_self).2 (.object done name :: frames)
    rw [List.flatMap_nil, List.nil_append, hv _ (hroom _ List.mem_cons_self)
      (endsNumber_brace rest), run_behind, closing_brace, goOn, List.reverse_cons]
  | cons m ms ih =>
    rw [List.forall_mem_cons] at hnames
    have hv := (h _ List.mem_cons_self).2 (.object done name :: frames)
    have hm := h m (List.mem_cons_of_mem _ List.mem_cons_self)
    rw [List.flatMap_cons, List.append_assoc, List.append_assoc,
      hv _ (hroom _ List.mem_cons_self) (endsNumber_comma _), run_behind,
      closing_comma_member _ _ hnames.1 hm.1, goOn,
      ih hnames.2 (fun u hu => h u (List.mem_cons_of_mem _ hu))
        (fun u hu => hroom u (List.mem_cons_of_mem _ hu)),
      List.reverse_cons, List.append_assoc, List.singleton_append]

/-- A leaf is read where the reader of scalars reads it. -/
theorem readsBack_of_scalar (hv : v.Portable) (harray : ∀ vs, v ≠ .array vs)
    (hobject : ∀ ms, v ≠ .object ms)
    (h : ∀ rest, EndsNumber rest → scalar d (compact v ++ rest) = .ok (v, rest)) :
    ReadsBack d v := by
  intro frames rest _ hrest
  obtain ⟨c, tail, hc, -, -, -, hbracket, hbrace⟩ := compact_begins hv
  have hscalar := h rest hrest
  have hopen : c ≠ '[' := fun h => (hbracket h).elim harray
  have hopen' : c ≠ '\x7b' := fun h => (hbrace h).elim hobject
  rw [hc, List.cons_append] at hscalar ⊢
  rw [run_scalar hopen hopen', hscalar]
  rfl

theorem scalar_quote {t : Text} (ht : ∀ c ∈ t, c.isSurrogate = false) (rest : Text) :
    scalar d (quote t ++ rest) = .ok (.string t, rest) := by
  rw [quote_append, scalar, if_pos rfl, string_escaped d ht]

theorem openArray_bracket (rest : Text) : openArray d (']' :: rest) = .inl (.array [], rest) := by
  unfold openArray
  rw [skipBlanks_visible (by decide)]
  rfl

theorem openObject_brace (rest : Text) :
    openObject d ('\x7d' :: rest) = .ok (.inl (.object [], rest)) := by
  unfold openObject
  rw [skipBlanks_visible (by decide)]
  rfl

theorem openArray_compact (hv : v.Portable) (rest : Text) :
    openArray d (compact v ++ rest) = .inr (.array [], compact v ++ rest) := by
  have hskip := (skipBlanks_compact (d := d) hv rest).1
  obtain ⟨c, tail, hc, -, -, hclose, -⟩ := compact_begins hv
  unfold openArray
  rw [hskip, hc, List.cons_append]
  exact if_neg hclose

theorem openObject_member {m : Text × Value} (hname : ∀ c ∈ m.1, c.isSurrogate = false)
    (hm : m.2.Portable) (rest : Text) :
    openObject d (compactMember m ++ rest) = .ok (.inr (.object [] m.1, compact m.2 ++ rest)) := by
  have hread : memberName d (compactMember m ++ rest) = .ok (m.1, compact m.2 ++ rest) :=
    memberName_quote hname hm rest
  rw [compactMember, List.append_assoc, quote_append] at hread ⊢
  unfold openObject
  rw [skipBlanks_visible (by decide)]
  simp only [hread]
  rfl

/-- **The loop reads a written value as that value.** -/
theorem run_compact (hv : v.Portable) : ReadsBack d v := by
  induction hv with
  | null => exact readsBack_of_scalar .null nofun nofun fun rest _ => by cases d <;> rfl
  | bool b =>
    refine readsBack_of_scalar (.bool b) nofun nofun fun rest _ => ?_
    cases b <;> cases d <;> rfl
  | int hlow hhigh =>
    exact readsBack_of_scalar (.int hlow hhigh) nofun nofun fun rest hrest =>
      scalar_decimalInt hlow hhigh hrest
  | string ht =>
    exact readsBack_of_scalar (.string ht) nofun nofun fun rest _ => scalar_quote ht rest
  | @array vs hvs ih =>
    intro frames rest hroom hrest
    have hwritten : compact (.array vs) ++ rest =
        ('[' : CodePoint) :: (compactElements vs ++ (']' : CodePoint) :: rest) := by
      rw [compact, List.append_assoc, List.append_assoc]
      rfl
    rw [hwritten, run_bracket (.inl rfl) hroom.mayNest, opening, if_pos rfl]
    -- one more array is open where the elements are read
    cases vs with
    | nil =>
      rw [compactElements, List.nil_append, openArray_bracket]
      rfl
    | cons v vs =>
      rw [compactElements_cons, List.append_assoc, openArray_compact (hvs v List.mem_cons_self),
        goOn, run_elements (fun w hw => ⟨hvs w hw, ih w hw⟩) fun w hw => hroom.mono ?_]
      · rfl
      · have hle := Value.nesting_le_elementsNesting hw
        rw [Value.nesting]
        omega
  | @object ms hd hnames hms ih =>
    intro frames rest hroom hrest
    have hwritten : compact (.object ms) ++ rest =
        ('\x7b' : CodePoint) :: (compactMembers ms ++ ('\x7d' : CodePoint) :: rest) := by
      rw [compact, List.append_assoc, List.append_assoc]
      rfl
    rw [hwritten, run_bracket (.inr rfl) hroom.mayNest, opening, if_neg (by decide)]
    cases ms with
    | nil =>
      rw [compactMembers, List.nil_append, openObject_brace]
      rfl
    | cons m ms =>
      rw [List.forall_mem_cons] at hnames
      rw [compactMembers_cons, List.append_assoc,
        openObject_member hnames.1 (hms m List.mem_cons_self), goOn,
        run_members hnames.2 (fun n hn => ⟨hms n hn, ih n hn⟩) fun n hn => hroom.mono ?_]
      · show run d frames (.behind (.object (Entries.ofList (m :: ms)))) rest = _
        rw [Entries.ofList_of_nodup hd]
      · have hle : n.2.nesting ≤ Value.membersNesting (m :: ms) :=
          Value.nesting_le_membersNesting hn
        rw [Value.nesting]
        omega

/-- **Decoding a written value gives it back**, also with white space behind it. -/
theorem decode_compact (hv : v.Portable) (hroom : HasRoom .lenient 0 v.nesting)
    (hrest : EndsNumber rest) (hblank : Dialect.skipBlanks .lenient rest = []) :
    decode .lenient (compact v ++ rest) = .ok v := by
  have hskip : Dialect.skipBlanks .lenient (compact v ++ rest) = compact v ++ rest :=
    (skipBlanks_compact hv rest).1
  have hrun : run .lenient [] .before (compact v ++ rest) = .ok (v, rest) :=
    (run_compact hv [] rest hroom hrest).trans (run_done _ _ _)
  have hbom : ¬ beginsWith (fun c => c.val = 0xFEFF) (compact v ++ rest) = true := by
    obtain ⟨c, tail, hc, -, hhigh, -⟩ := compact_begins hv
    rw [hc, List.cons_append, beginsWith, decide_eq_true_eq]
    omega
  rw [decode, if_neg hbom, hskip, hrun]
  simp only [hblank]

end Json

end TypeSketch
