import TypeSketch.Proofs.Failing
import TypeSketch.Proofs.Reports

/-!
# What files deliver

Whatever a file holds, it delivers values without foreign leaves, and it fails with a report that
cites nothing but its path.

* `Value.Native`: a value without foreign leaves.
* `Json.native_run`: what is read off a JSON text is native.
* `Feed.Clean`: **a feed of native samples that fails harmlessly.**
* `Survey.clean_feedOf`: every file whose path closes nothing has a clean feed.
* `Shape.inferAll_harmless`: inferring from native samples fails harmlessly.
-/

namespace TypeSketch

/-- **A value without foreign leaves.** -/
inductive Value.Native : Value → Prop
  | null : Native .null
  | bool (b : Bool) : Native (.bool b)
  | number (n : Numeral) : Native (.number n)
  | string (t : Text) : Native (.string t)
  | array {elements : List Value} (h : ∀ v ∈ elements, Native v) : Native (.array elements)
  | object {members : List (Text × Value)} (h : ∀ m ∈ members, Native m.2) :
    Native (.object members)

namespace Entries

variable {α : Type} {es pairs : Entries α} {e : Text × α} {name : Text} {a : α}

theorem mem_of_mem_put (h : e ∈ es.put name a) : e = (name, a) ∨ e ∈ es := by
  induction es with
  | nil => exact .inl (List.mem_singleton.1 h)
  | cons first rest ih =>
    rw [put] at h
    split at h
    · exact (List.mem_cons.1 h).imp_right (List.mem_cons_of_mem _)
    · rcases List.mem_cons.1 h with rfl | h
      · exact .inr List.mem_cons_self
      · exact (ih h).imp_right (List.mem_cons_of_mem _)

/-- Putting some pairs one by one leaves nothing else. -/
theorem mem_of_mem_ofList (h : e ∈ ofList pairs) : e ∈ pairs := by
  have hfold : ∀ {pairs es : Entries α}, e ∈ pairs.foldl (fun es p => es.put p.1 p.2) es →
      e ∈ pairs ∨ e ∈ es := by
    intro pairs
    induction pairs with
    | nil => exact fun h => .inr h
    | cons p pairs ih =>
      intro es h
      rcases ih h with h | h
      · exact .inl (List.mem_cons_of_mem _ h)
      · rcases mem_of_mem_put h with rfl | h
        · exact .inl List.mem_cons_self
        · exact .inr h
  exact (hfold h).resolve_right List.not_mem_nil

end Entries

/-! ## JSON -/

namespace Json

open Value (Native)

variable {d : Dialect} {t rest : Text} {v : Value}

/-- What was read of an open array or object has no foreign leaves. -/
def Frame.Native : Frame → Prop
  | .array done => ∀ v ∈ done, v.Native
  | .object done _ => ∀ m ∈ done, m.2.Native

/-- The same of a complete value. -/
def Place.Native : Place → Prop
  | .before => True
  | .behind v => v.Native

/-- The same of what an opening or closing bracket leads to. -/
def Reached : Sum (Value × Text) (Frame × Text) → Prop
  | .inl (v, _) => v.Native
  | .inr (f, _) => f.Native

theorem native_number (h : number d t = .ok (v, rest)) : v.Native := by
  have hinteger : ∀ {negative digits w}, d.integer negative digits = .ok w → Native w := by
    intro negative digits w hw
    unfold Dialect.integer at hw
    split at hw
    · split at hw <;> cases hw
      exact .number _
    · split at hw
      · cases hw
      · dsimp only at hw
        split at hw <;> cases hw
        exact .number _
  have hdouble : ∀ {x w}, d.double x = .ok w → Native w := by
    intro x w hw
    unfold Dialect.double at hw
    split at hw
    · cases hw
      exact .number _
    · split at hw <;> cases hw
      exact .number _
  unfold number at h
  dsimp only at h
  split at h
  · cases h
  · split at h
    · cases h
    · split at h
      · cases h
      · split at h
        · cases h
        · next w hw =>
          cases h
          unfold numberOf at hw
          split at hw
          · exact hinteger hw
          · exact hdouble hw

theorem native_word {ws : List (Text × Value)} (hws : ∀ w ∈ ws, w.2.Native)
    (h : word? ws t = some (v, rest)) : v.Native := by
  induction ws with
  | nil => cases h
  | cons w ws ih =>
    rw [List.forall_mem_cons] at hws
    rw [word?] at h
    split at h
    · cases h
      exact hws.1
    · exact ih hws.2 h

theorem native_scalar (h : scalar d t = .ok (v, rest)) : v.Native := by
  have hwords : ∀ w ∈ d.words, w.2.Native := by
    have hplain : ∀ w ∈ Dialect.plainWords, w.2.Native :=
      List.forall_mem_cons.2 ⟨.null, List.forall_mem_cons.2 ⟨.bool _, List.forall_mem_cons.2
        ⟨.bool _, nofun⟩⟩⟩
    cases d with
    | lenient =>
      refine List.forall_mem_append.2 ⟨hplain, ?_⟩
      exact List.forall_mem_cons.2 ⟨.number _, List.forall_mem_cons.2 ⟨.number _,
        List.forall_mem_cons.2 ⟨.number _, nofun⟩⟩⟩
    | strict => exact hplain
  unfold scalar at h
  split at h
  · cases h
  · split at h
    · split at h
      · cases h
        exact .string _
      · cases h
    · split at h
      · next r hr =>
        cases h
        exact native_word hwords hr
      · exact native_number h

theorem reached_opening {c : CodePoint} {r : Sum (Value × Text) (Frame × Text)}
    (h : opening d c t = .ok r) : Reached r := by
  unfold opening at h
  split at h
  · cases h
    unfold openArray
    split
    · exact List.forall_mem_nil _
    · split
      · exact .array (List.forall_mem_nil _)
      · exact List.forall_mem_nil _
  · unfold openObject at h
    split at h
    · cases h
    · split at h
      · cases h
        exact .object (List.forall_mem_nil _)
      · split at h
        · cases h
        · cases h
          exact List.forall_mem_nil _

theorem reached_closing {f : Frame} {r : Sum (Value × Text) (Frame × Text)} (hf : f.Native)
    (hv : v.Native) (h : closing d f v t = .ok r) : Reached r := by
  unfold closing at h
  split at h
  · cases h
  · split at h
    · next done =>
      have hdone : ∀ w ∈ v :: done, w.Native := List.forall_mem_cons.2 ⟨hv, hf⟩
      split at h
      · cases h
        exact .array fun w hw => hdone w (List.mem_reverse.1 hw)
      · split at h <;> cases h
        exact hdone
    · next done name =>
      have hdone : ∀ m ∈ (name, v) :: done, m.2.Native := List.forall_mem_cons.2 ⟨hv, hf⟩
      split at h
      · cases h
        exact .object fun m hm => hdone m (List.mem_reverse.1 (Entries.mem_of_mem_ofList hm))
      · split at h
        · split at h <;> cases h
          exact hdone
        · cases h

/-- **What is read off a JSON text is native.** -/
theorem native_run {frames : List Frame} {place : Place} (hframes : ∀ f ∈ frames, f.Native)
    (hplace : place.Native) (h : run d frames place t = .ok (v, rest)) : v.Native := by
  -- the open frames and the value that is complete stay native from step to step
  fun_induction run d frames place t with
  | case1 | case2 | case5 | case6 | case9 => cases h
  | case3 frames c rest _ _ w rest' ho ih => exact ih hframes (reached_opening ho) h
  | case4 frames c rest _ _ f rest' ho ih =>
    exact ih (List.forall_mem_cons.2 ⟨reached_opening ho, hframes⟩) trivial h
  | case7 frames c rest _ w rest' hs ih => exact ih hframes (native_scalar hs) h
  | case8 t w =>
    cases h
    exact hplace
  | case10 t w f frames u rest hc ih =>
    rw [List.forall_mem_cons] at hframes
    exact ih hframes.2 (reached_closing hframes.1 hplace hc) h
  | case11 t w f frames g rest hc ih =>
    rw [List.forall_mem_cons] at hframes
    exact ih (List.forall_mem_cons.2 ⟨reached_closing hframes.1 hplace hc, hframes.2⟩) trivial h

theorem native_whole (h : run d [] .before t = .ok (v, rest)) : v.Native := by
  have hplace : Place.Native .before := trivial
  exact native_run (List.forall_mem_nil _) hplace h

theorem native_decode (h : decode d t = .ok v) : v.Native := by
  unfold decode at h
  split at h
  · cases h
  · split at h
    · cases h
    · next w rest hrun =>
      split at h <;> cases h
      exact native_whole hrun

theorem native_elements {done : List Value} (hdone : ∀ w ∈ done, w.Native) :
    ∀ w ∈ (elements d done t).1, w.Native := by
  have hreverse : ∀ {ws : List Value}, (∀ w ∈ ws, Native w) → ∀ w ∈ ws.reverse, Native w :=
    fun h w hw => h w (List.mem_reverse.1 hw)
  have hcons : ∀ {done : List Value} {w : Value} {t rest : Text}, (∀ u ∈ done, Native u) →
      run d [] .before t = .ok (w, rest) → ∀ u ∈ w :: done, Native u :=
    fun hdone hrun => List.forall_mem_cons.2 ⟨native_whole hrun, hdone⟩
  fun_induction elements d done t with
  | case1 done t m hrun => exact hreverse hdone
  | case2 done t w rest hrun => exact hreverse (hcons hdone hrun)
  | case3 done t w rest hrun rest' hblank ih => exact ih (hcons hdone hrun)
  | case4 done t w rest hrun => exact hreverse (hcons hdone hrun)
  | case5 done t w rest hrun => exact hreverse (hcons hdone hrun)
  | case6 done t w rest hrun => exact hreverse (hcons hdone hrun)

end Json

/-! ## Sheets -/

namespace Sheet

open Value (Native)

theorem native_orNull {α : Type} {f : α → Value} (hf : ∀ a, (f a).Native) (x : Option α) :
    (Column.orNull f x).Native := by
  cases x with
  | none => exact .null
  | some a => exact hf a

theorem native_map {α : Type} {f : α → Value} (hf : ∀ a, (f a).Native) (xs : List α) :
    ∀ v ∈ xs.map f, v.Native := by
  intro v hv
  obtain ⟨a, -, rfl⟩ := List.mem_map.1 hv
  exact hf a

theorem native_number (d : Double) : (Column.number d).Native :=
  native_orNull (fun d => .number (.double d)) _

theorem native_texts (cells : List Cell) : ∀ v ∈ Column.texts cells, v.Native := by
  refine native_map (fun c => ?_) cells
  split
  · exact .null
  · exact .string c

theorem native_fractions (cells : List Cell) : ∀ v ∈ Column.fractions cells, v.Native := by
  unfold Column.fractions
  split
  · exact native_map (native_orNull native_number) _
  · split
    · exact native_map (native_orNull .bool) _
    · exact native_texts cells

theorem native_unsignedOnly (cells : List Cell) : ∀ v ∈ Column.unsignedOnly cells, v.Native := by
  unfold Column.unsignedOnly
  split
  · exact native_fractions cells
  · exact native_texts cells
  · dsimp only
    split
    · exact native_map .string cells
    · split
      · exact native_texts cells
      · exact native_map (native_orNull (native_orNull fun n : Nat => .number (.int n))) _

/-- The cells of a column denote native values. -/
theorem native_values (cells : List Cell) : ∀ v ∈ Column.values cells, v.Native := by
  unfold Column.values
  split
  · split
    · exact native_map (native_orNull fun n => native_number _) _
    · exact native_map (native_orNull fun n => .number (.int n)) _
  · exact native_fractions cells
  · exact native_unsignedOnly cells

theorem native_objects {columns : List (Text × List Value)}
    (h : ∀ c ∈ columns, ∀ v ∈ c.2, v.Native) (height : Nat) :
    ∀ v ∈ objects height columns, v.Native := by
  refine native_map (fun i => .object fun m hm => ?_) _
  obtain ⟨c, hc, rfl⟩ := List.mem_map.1 hm
  show (c.2.getD i .null).Native
  rw [List.getD_eq_getElem?_getD]
  cases hcell : c.2[i]? with
  | none => exact .null
  | some v => exact h c hc v (List.mem_of_getElem? hcell)

end Sheet

/-! ## Feeds -/

/-- **A feed of native samples that fails harmlessly.** -/
structure Feed.Clean (f : Feed) : Prop where
  native : ∀ v ∈ f.samples, v.Native
  harmless : ∀ fault ∈ f.fault, fault.Harmless

namespace Feed

variable {a b : Feed}

theorem clean_failing {f : Fault} (h : f.Harmless) : (failing f).Clean :=
  ⟨nofun, fun _ hf => Option.some.inj hf ▸ h⟩

theorem clean_empty : ({} : Feed).Clean := ⟨nofun, nofun⟩

theorem Clean.append (ha : a.Clean) (hb : b.Clean) : (a.append b).Clean := by
  unfold Feed.append
  split
  · exact ha
  · exact ⟨List.forall_mem_append.2 ⟨ha.native, hb.native⟩, hb.harmless⟩

theorem clean_concat {feeds : List Feed} (h : ∀ f ∈ feeds, f.Clean) : (concat feeds).Clean := by
  induction feeds with
  | nil => exact clean_empty
  | cons f feeds ih =>
    rw [List.forall_mem_cons] at h
    exact h.1.append (ih h.2)

/-- What is collected of a clean feed is native, and collecting fails harmlessly. -/
theorem Clean.collect (h : a.Clean) (count : Option Nat) :
    FailsBy Fault.Harmless (a.collect count) ∧
      ∀ vs, a.collect count = .ok vs → ∀ v ∈ vs, v.Native := by
  have hall : FailsBy Fault.Harmless a.all ∧ ∀ vs, a.all = .ok vs → ∀ v ∈ vs, v.Native := by
    unfold all
    split
    · next fault hfault => exact ⟨.error (h.harmless _ hfault), nofun⟩
    · refine ⟨.ok _, fun vs hvs => ?_⟩
      cases hvs
      exact h.native
  unfold Feed.collect
  split
  · exact hall
  · split
    · refine ⟨.ok _, fun vs hvs => ?_⟩
      cases hvs
      exact fun v hv => h.native v (List.mem_of_mem_take hv)
    · exact hall

end Feed

theorem Document.clean_delivered {samples : List Value} (h : ∀ v ∈ samples, v.Native)
    (mishap : Option Json.Mishap) : (delivered samples mishap).Clean := by
  refine ⟨h, fun fault hfault => ?_⟩
  obtain ⟨m, -, rfl⟩ := Option.map_eq_some_iff.1 hfault
  exact Fault.harmless_of_cited (by cases m <;> rfl)

theorem Document.clean_feed (bytes : List UInt8) : (feed bytes).Clean := by
  have harray : ∀ t, (arrayFeed t).Clean := by
    intro t
    unfold arrayFeed
    split
    · exact clean_delivered (List.forall_mem_nil _) _
    · split
      · split
        · exact clean_delivered (List.forall_mem_singleton.2 (.array (List.forall_mem_nil _))) _
        · exact clean_delivered (List.forall_mem_nil _) _
      · exact clean_delivered (Json.native_elements (List.forall_mem_nil _)) _
  unfold feed
  split
  · exact Feed.clean_empty
  · split
    · exact harray _
    · split
      · exact clean_delivered (List.forall_mem_nil _) _
      · next v rest hrun =>
        exact clean_delivered (List.forall_mem_singleton.2 (Json.native_whole hrun)) _

theorem Lines.clean_feed (bytes : List UInt8) : (feed bytes).Clean := by
  have hlines : ∀ behind : Option Fault, (∀ f ∈ behind, f.Harmless) → ∀ lines,
      (feedOf behind lines).Clean := by
    intro behind hbehind lines
    induction lines with
    | nil => exact ⟨nofun, hbehind⟩
    | cons line rest ih =>
      rw [feedOf]
      split
      · exact ih
      · split
        · next v hv =>
          exact ⟨List.forall_mem_cons.2 ⟨Json.native_decode hv, ih.native⟩, ih.harmless⟩
        · next m hm =>
          refine Feed.clean_failing (Fault.harmless_of_cited ?_)
          unfold faultOf
          split <;> rfl
  refine hlines _ (fun f hf => ?_) _
  obtain ⟨flaw, -, rfl⟩ := Option.map_eq_some_iff.1 hf
  exact Fault.harmless_of_cited rfl

theorem Sheet.clean_feed (bytes : List UInt8) : (feed bytes).Clean := by
  have hrows : ∀ rows, (samples rows).Clean := by
    intro rows
    unfold samples
    split
    · exact Feed.clean_failing (Fault.harmless_of_cited rfl)
    · exact Feed.clean_empty
    · refine ⟨native_objects (fun c hc => ?_) _, nofun⟩
      obtain ⟨i, hi, rfl⟩ := List.mem_mapIdx.1 hc
      exact native_values _
  unfold feed
  split
  · exact Feed.clean_failing (Fault.harmless_of_cited rfl)
  · split
    · exact hrows _
    · exact Feed.clean_failing (Fault.harmless_of_cited rfl)

/-- A file cannot be read for a reason that cites its path. -/
theorem Folder.read_failsBy (folder : Folder) (path : Text) :
    FailsBy (fun f => f.cited = some path) (folder.read path) := by
  unfold read
  split
  · exact .ok _
  all_goals exact .error rfl

theorem Folder.write_failsBy (folder : Folder) (path : Text) (bytes : List UInt8) :
    FailsBy (fun f => f.cited = some path) (folder.write path bytes) := by
  unfold write
  split
  · split
    · exact .error rfl
    · exact .ok _
  · split
    · exact .error rfl
    · exact .ok _
  all_goals exact .error rfl

theorem Fault.harmless_of_cites {f : Fault} {path : Text} (h : Markup.ClosesNothing path)
    (hf : f.cited = some path) : f.Harmless := by
  intro t ht
  rw [hf] at ht
  cases ht
  exact h

/-- **A file whose path closes nothing has a clean feed**, whatever it holds. -/
theorem Survey.clean_feedOf {path : Text} (h : Markup.ClosesNothing path) (folder : Folder) :
    (feedOf folder path).Clean := by
  unfold feedOf
  split
  · cases Layout.ofPath path with
    | document => exact Document.clean_feed _
    | lines => exact Lines.clean_feed _
    | sheet => exact Sheet.clean_feed _
  · next f hf =>
    exact Feed.clean_failing (Fault.harmless_of_cites h (folder.read_failsBy path f hf))

/-! ## Inference -/

namespace Shape

variable {limit : Option Int}

theorem checkDepth_harmless (limit : Option Int) (depth : Nat) :
    FailsBy Fault.Harmless (checkDepth limit depth) := by
  unfold checkDepth
  split
  · exact .error (Fault.harmless_of_cited rfl)
  · split
    · exact .error (Fault.harmless_of_cited rfl)
    · exact .ok ()

theorem inferElements_harmless {elements : List Value}
    (h : ∀ v ∈ elements, ∀ depth, FailsBy Fault.Harmless (inferAt limit depth v)) (depth : Nat) :
    FailsBy Fault.Harmless (inferElements limit depth elements) := by
  induction elements with
  | nil => exact .ok []
  | cons v rest ih =>
    rw [List.forall_mem_cons] at h
    rw [inferElements]
    exact (h.1 depth).bind fun _ => (ih h.2).bind fun _ => .ok _

theorem inferMembers_harmless {members : List (Text × Value)}
    (h : ∀ m ∈ members, ∀ depth, FailsBy Fault.Harmless (inferAt limit depth m.2)) (depth : Nat) :
    FailsBy Fault.Harmless (inferMembers limit depth members) := by
  induction members with
  | nil => exact .ok []
  | cons m rest ih =>
    rw [List.forall_mem_cons] at h
    rw [inferMembers]
    exact (h.1 depth).bind fun _ => (ih h.2).bind fun _ => .ok _

theorem inferAt_harmless {v : Value} (h : v.Native) (depth : Nat) :
    FailsBy Fault.Harmless (inferAt limit depth v) := by
  have hdepth := checkDepth_harmless limit
  induction h generalizing depth with
  | null => exact (hdepth depth).bind fun _ => .ok _
  | bool b => exact (hdepth depth).bind fun _ => .ok _
  | number n => exact (hdepth depth).bind fun _ => .ok _
  | string t => exact (hdepth depth).bind fun _ => .ok _
  | array _ ih =>
    rw [inferAt]
    exact (hdepth depth).bind fun _ => (inferElements_harmless ih _).bind fun _ => .ok _
  | object _ ih =>
    rw [inferAt]
    exact (hdepth depth).bind fun _ => (inferMembers_harmless ih _).bind fun _ => .ok _

/-- **Inferring from native samples fails harmlessly.** -/
theorem inferAll_harmless {samples : List Value} (h : ∀ v ∈ samples, v.Native) :
    FailsBy Fault.Harmless (inferAll limit samples) := by
  have hshapes : FailsBy Fault.Harmless (samples.mapM (infer limit)) := by
    rw [mapM_infer_eq]
    exact inferElements_harmless (fun v hv => inferAt_harmless (h v hv)) 0
  refine hshapes.bind fun shapes => ?_
  split
  · exact .error (Fault.harmless_of_cited rfl)
  · exact .ok _

end Shape

end TypeSketch
