import TypeSketch.Proofs.RoundTrip
import TypeSketch.Samples.Document

/-!
# Documents read back

* `elements_compact`: the elements of a written array are read one after another.
* `feed_compact_array`: **a document that is an array delivers its elements**, unless it has none.
* `feed_compact`: **any other document is one sample.**
-/

namespace TypeSketch

open Json

variable {v : Value} {vs : List Value} {t : Text}

/-- The strict dialect has room for any nesting. -/
theorem Json.hasRoom_strict (openNow nesting : Nat) : HasRoom .strict openNow nesting := nofun

/-- The elements of a written array are read one after another. -/
theorem Json.elements_compact (h : ∀ w ∈ v :: vs, w.Portable) (done : List Value) :
    elements .strict done (compact v ++ ((vs.flatMap fun w => (", " : Text) ++ compact w) ++
        [(']' : CodePoint)])) = (done.reverse ++ v :: vs, none) := by
  have hread : ∀ {w : Value} {rest : Text}, w.Portable → EndsNumber rest →
      run .strict [] .before (compact w ++ rest) = .ok (w, rest) := fun hw hrest =>
    (run_compact hw [] _ (hasRoom_strict _ _) hrest).trans (run_done _ _ _)
  induction vs generalizing v done with
  | nil =>
    rw [List.flatMap_nil, List.nil_append,
      elements_bracket (hread (h v List.mem_cons_self) (endsNumber_bracket [])) rfl,
      List.reverse_cons]
  | cons w vs ih =>
    have hw := h w (List.mem_cons_of_mem _ List.mem_cons_self)
    have hrun := hread (h v List.mem_cons_self) (endsNumber_comma (compact w ++
      ((vs.flatMap fun w => (", " : Text) ++ compact w) ++ [(']' : CodePoint)])))
    rw [List.flatMap_cons, List.append_assoc, List.append_assoc, elements_comma hrun]
    show elements _ _ (Dialect.skipBlanks .strict (' ' :: (compact w ++ _))) = _
    rw [(skipBlanks_compact hw _).2, ih fun u hu => h u (List.mem_cons_of_mem _ hu),
      List.reverse_cons, List.append_assoc, List.singleton_append]

namespace Document

/-- The bytes of ASCII characters are their numbers. -/
theorem ofBytes_utf8 (ht : ∀ c ∈ t, c.val < 0x80) : ofBytes t.utf8 = t := by
  induction t with
  | nil => rfl
  | cons c t ih =>
    rw [List.forall_mem_cons] at ht
    have hbyte : c.utf8 = [UInt8.ofNat c.val] := if_pos ht.1
    have hread : CodePoint.ofNat (UInt8.ofNat c.val).toNat = c := by
      rw [Utf8.toNat_ofNat (Nat.lt_trans ht.1 (by decide)), ofNat_val]
    rw [Text.utf8_cons, hbyte, List.singleton_append, ofBytes, List.map_cons, hread]
    exact congrArg _ (ih ht.2)

theorem ofBytes_compact (hv : v.Portable) : ofBytes (compact v).utf8 = compact v :=
  ofBytes_utf8 fun c hc => Nat.lt_succ_of_lt (printable_compact hv c hc).2

/-- **A document that is an array delivers its elements**, unless it has none. -/
theorem feed_compact_array (hne : vs ≠ []) (h : ∀ w ∈ vs, w.Portable) :
    feed (compact (.array vs)).utf8 = ⟨vs, none⟩ := by
  obtain ⟨v, vs, rfl⟩ := List.exists_cons_of_ne_nil hne
  have hv := h v List.mem_cons_self
  have hwritten : compact (.array (v :: vs)) = ('[' : CodePoint) :: (compact v ++
      ((vs.flatMap fun w => (", " : Text) ++ compact w) ++ [(']' : CodePoint)])) := by
    rw [compact, compactElements_cons, List.append_assoc, List.append_assoc]
    rfl
  have helements := elements_compact h []
  rw [feed, ofBytes_compact (.array h), hwritten, skipBlanks_visible (by decide)]
  show arrayFeed _ = _
  rw [arrayFeed, (skipBlanks_compact hv _).1]
  obtain ⟨c, tail, hc, -, -, hclose, -⟩ := compact_begins hv
  rw [hc, List.cons_append] at helements ⊢
  simp only [if_neg hclose, helements]
  rfl

/-- **Any other document is one sample.** -/
theorem feed_compact (hv : v.Portable) (hlist : ∀ w ws, v ≠ .array (w :: ws)) :
    feed (compact v).utf8 = ⟨[v], none⟩ := by
  by_cases harray : ∃ vs, v = .array vs
  · obtain ⟨vs, rfl⟩ := harray
    cases vs with
    | nil => rfl
    | cons w ws => exact absurd rfl (hlist w ws)
  · have hrun : run .strict [] .before (compact v) = .ok (v, []) := by
      have hread := run_compact hv [] [] (hasRoom_strict _ _) .nil
      rw [List.append_nil] at hread
      exact hread.trans (run_done _ _ _)
    have hskip : Dialect.skipBlanks .strict (compact v) = compact v := by
      have h := (skipBlanks_compact (d := .strict) hv []).1
      rwa [List.append_nil] at h
    obtain ⟨c, tail, hc, -, -, -, hbracket, -⟩ := compact_begins hv
    rw [feed, ofBytes_compact hv, hskip]
    rw [hc] at hrun ⊢
    simp only [if_neg fun h => harray (hbracket h), hrun]
    rfl

end Document

end TypeSketch
