import Mathlib.Data.List.TakeWhile
import TypeSketch.Json.Decode

/-!
# What a text at hand can fail by

Reading a text leniently takes code points off its front until it ends or stops. So a mishap tells
something about a part of the text.

* `Mishap.In`: the mishaps of the lenient dialect in a text. An integer is too long only where the
  text has that many digits in a row.
* `Reads`: a reader leaves an end of the text behind it, or stops with such a mishap.
* `reads_scalar`, `reads_closing`: so do the readers of scalars and of what holds others together.
* `reads_run`: **so does the loop**, whatever is open and wherever it stands.
* `in_of_decode`: **a text that has no value stops with one of its mishaps.**
-/

namespace TypeSketch.Json

variable {α : Type} {s t rest : Text} {m : Mishap}

/-- **The mishaps of the lenient dialect in a text**: its syntax is wrong, a row of digits in it is
too long, or it nests too deep. -/
inductive Mishap.In (t : Text) : Mishap → Prop
  | problem (p : Problem) (rest : Text) : In t (.problem p rest)
  | longInteger {ds : Text} (hin : ds <:+: t) (hdigit : ∀ c ∈ ds, c.isDigit = true)
    (hlong : Dialect.maxDigits < ds.length) : In t (.longInteger ds.length)
  | tooDeep : In t .tooDeep

theorem Mishap.In.mono (hm : m.In s) (h : s <:+ t) : m.In t := by
  cases hm with
  | problem p rest => exact .problem p rest
  | longInteger hin hdigit hlong => exact .longInteger (hin.trans h.isInfix) hdigit hlong
  | tooDeep => exact .tooDeep

/-- **What a reader does with a text**: it leaves an end of it, or stops with one of its mishaps. -/
def Reads (rest : α → Text) (t : Text) : Except Mishap α → Prop
  | .ok a => rest a <:+ t
  | .error m => m.In t

theorem Reads.mono {rest : α → Text} {r : Except Mishap α} (hr : Reads rest s r) (h : s <:+ t) :
    Reads rest t r := by
  cases r with
  | ok a => exact List.IsSuffix.trans hr h
  | error m => exact Mishap.In.mono hr h

theorem Reads.ok {rest : α → Text} {r : Except Mishap α} {a : α} (hr : Reads rest t r)
    (h : r = .ok a) : rest a <:+ t := by
  subst h
  exact hr

theorem Reads.error {rest : α → Text} {r : Except Mishap α} (hr : Reads rest t r)
    (h : r = .error m) : m.In t := by
  subst h
  exact hr

theorem suffix_skipBlanks (d : Dialect) (t : Text) : d.skipBlanks t <:+ t :=
  List.dropWhile_suffix _

/-! ## Strings -/

theorem suffix_of_hexFour? {n : Nat} (h : hexFour? t = some (n, rest)) : rest <:+ t := by
  unfold hexFour? at h
  split at h
  · next a b c d rest' =>
    split at h
    · cases h
      exact ⟨[a, b, c, d], rfl⟩
    · cases h
  · cases h

theorem reads_unicodeEscape (t : Text) : Reads Prod.snd t (unicodeEscape t) := by
  unfold unicodeEscape
  split
  · next n slash u second hn =>
    have hrest := suffix_of_hexFour? hn
    split
    · split
      · next m rest' hm =>
        have hsecond : second <:+ slash :: u :: second := ⟨[slash, u], rfl⟩
        split
        · exact ((suffix_of_hexFour? hm).trans hsecond).trans hrest
        · exact hrest
      · exact .problem _ _
    · exact hrest
  · next n c hn => exact suffix_of_hexFour? hn
  · exact .problem _ _

theorem reads_lenientString (start acc t : Text) : Reads Prod.snd t (lenientString start acc t) := by
  fun_induction lenientString start acc t with
  | case1 => exact .problem _ _
  | case2 => exact List.suffix_cons _ _
  | case3 => exact .problem _ _
  | case4 acc after d rest' he _ ih =>
    have hrest : rest' <:+ after := (reads_unicodeEscape after).ok he
    exact ih.mono (hrest.trans ⟨[_, _], rfl⟩)
  | case5 acc after m he =>
    exact ((reads_unicodeEscape after).error he).mono ⟨[_, _], rfl⟩
  | case6 acc e after _ d _ _ ih => exact ih.mono ⟨[_, e], rfl⟩
  | case7 => exact .problem _ _
  | case8 => exact .problem _ _
  | case9 acc c rest _ _ _ ih => exact ih.mono (List.suffix_cons _ _)

/-! ## Numbers -/

theorem digits_append (t : Text) : digits t ++ afterDigits t = t := List.takeWhile_append_dropWhile

theorem isDigit_of_mem_digits {c : CodePoint} (h : c ∈ digits t) : c.isDigit = true := by
  unfold digits at h
  exact List.mem_takeWhile_imp h

/-- The integer part of a number is a row of digits. -/
theorem wholePart?_eq_some {w : Text} (h : wholePart? t = some (w, rest)) :
    w ++ rest = t ∧ ∀ c ∈ w, c.isDigit = true := by
  unfold wholePart? at h
  split at h
  · cases h
  · next c r =>
    split at h
    · next hc =>
      cases h
      subst hc
      exact ⟨rfl, by decide⟩
    · split at h
      · next hdigit =>
        cases h
        refine ⟨congrArg (c :: ·) (digits_append r), ?_⟩
        exact List.forall_mem_cons.2 ⟨hdigit, fun d hd => isDigit_of_mem_digits hd⟩
      · cases h

theorem suffix_of_fraction? {f : Text} (h : fraction? t = some (f, rest)) : rest <:+ t := by
  unfold fraction? at h
  split at h
  · cases h
  · next c r =>
    split at h
    · cases h
      exact (List.dropWhile_suffix _).trans (List.suffix_cons _ _)
    · cases h

theorem suffix_cutSign (t : Text) : (Text.cutSign t).2 <:+ t := by
  unfold Text.cutSign
  split
  · exact List.suffix_refl _
  · next c r =>
    split
    · exact List.suffix_cons _ _
    · split
      · exact List.suffix_cons _ _
      · exact List.suffix_refl _

theorem suffix_of_exponent? {e : Int} (h : exponent? t = some (e, rest)) : rest <:+ t := by
  unfold exponent? at h
  split at h
  · cases h
  · next c r =>
    simp only at h
    split at h
    · cases h
      have hsign := (suffix_cutSign r).trans (List.suffix_cons c r)
      exact (List.dropWhile_suffix _).trans hsign
    · cases h

/-- A part of a number that may be there never stops the lenient dialect. -/
theorem reads_optionalPart {part : Option (α × Text)} (begins : Bool)
    (hpart : ∀ a rest, part = some (a, rest) → rest <:+ t) :
    Reads Prod.snd t (optionalPart .lenient t begins part) := by
  unfold optionalPart
  split
  · next a rest => exact hpart a rest rfl
  · exact List.suffix_refl t

/-- Only an integer can be too much for the lenient dialect, by its number of digits. -/
theorem numberOf_eq_error {negative : Bool} {whole : Text} {fraction : Option Text}
    {exponent : Option Int} (h : numberOf .lenient negative whole fraction exponent = .error m) :
    Dialect.maxDigits < whole.length ∧ m = .longInteger whole.length := by
  unfold numberOf at h
  split at h
  · simp only [Dialect.integer] at h
    split at h
    · next hlong =>
      cases h
      exact ⟨hlong, rfl⟩
    · cases h
  · cases h

theorem reads_number (t : Text) : Reads Prod.snd t (number .lenient t) := by
  unfold number
  simp only
  have hunsigned : (if beginsWith (CodePoint.is '-') t = true then (true, List.drop 1 t)
      else (false, t)).2 <:+ t := by
    split
    · exact List.drop_suffix 1 t
    · exact List.suffix_refl t
  split
  · exact .problem _ _
  · next whole rest hwhole =>
    obtain ⟨happend, hdigit⟩ := wholePart?_eq_some hwhole
    have hrest : rest <:+ t := List.IsSuffix.trans ⟨whole, happend⟩ hunsigned
    have hin : whole <:+: t := List.IsInfix.trans ⟨[], rest, happend⟩ hunsigned.isInfix
    have hfraction := reads_optionalPart (beginsWith (CodePoint.is '.') rest)
      fun _ _ (h : fraction? rest = some _) => suffix_of_fraction? h
    split
    · next m hm => exact (hfraction.error hm).mono hrest
    · next fraction rest' hf =>
      have hrest' : rest' <:+ t := (hfraction.ok hf).trans hrest
      have hexponent := reads_optionalPart (beginsWith (fun c => c = 'e' || c = 'E') rest')
        fun _ _ (h : exponent? rest' = some _) => suffix_of_exponent? h
      split
      · next m hm => exact (hexponent.error hm).mono hrest'
      · next exponent rest'' he =>
        split
        · next m hm =>
          obtain ⟨hlong, rfl⟩ := numberOf_eq_error hm
          exact .longInteger hin hdigit hlong
        · exact (hexponent.ok he).trans hrest'

/-! ## Scalars -/

theorem suffix_of_word? {ws : List (Text × Value)} {v : Value} (h : word? ws t = some (v, rest)) :
    rest <:+ t := by
  induction ws with
  | nil => cases h
  | cons w ws ih =>
    obtain ⟨w, u⟩ := w
    rw [word?] at h
    split at h
    · cases h
      exact List.drop_suffix _ _
    · exact ih h

theorem reads_scalar (t : Text) : Reads Prod.snd t (scalar .lenient t) := by
  unfold scalar
  split
  · exact .problem _ _
  · next c rest =>
    have hstring := (reads_lenientString ('"' :: rest) [] rest).mono (List.suffix_cons c rest)
    split
    · simp only [string]
      split
      · next s rest' hs => exact hstring.ok hs
      · next m hm => exact hstring.error hm
    · split
      · next r hw => exact suffix_of_word? hw
      · exact reads_number _

/-! ## Arrays and objects -/

theorem reads_memberName (t : Text) : Reads Prod.snd t (memberName .lenient t) := by
  unfold memberName
  split
  · exact .problem _ _
  · next c rest =>
    have hstring := (reads_lenientString ('"' :: rest) [] rest).mono (List.suffix_cons c rest)
    split
    · simp only [string]
      split
      · next m hm => exact hstring.error hm
      · next name rest' hs =>
        split
        · exact .problem _ _
        · next c' rest'' hb =>
          split
          · have hcolon : c' :: rest'' <:+ rest' := hb ▸ suffix_skipBlanks .lenient rest'
            have hvalue := (suffix_skipBlanks .lenient rest'').trans (List.suffix_cons c' rest'')
            exact (hvalue.trans hcolon).trans (hstring.ok hs)
          · exact .problem _ _
    · exact .problem _ _

theorem suffix_openArray (t : Text) : restOf (openArray .lenient t) <:+ t := by
  have hblank := suffix_skipBlanks .lenient t
  unfold openArray
  split
  · exact List.nil_suffix
  · next c r hb =>
    rw [hb] at hblank
    split
    · exact (List.suffix_cons c r).trans hblank
    · exact hblank

theorem reads_openObject (t : Text) : Reads restOf t (openObject .lenient t) := by
  have hblank := suffix_skipBlanks .lenient t
  unfold openObject
  split
  · exact .problem _ _
  · next c r hb =>
    rw [hb] at hblank
    have hname := (reads_memberName (c :: r)).mono hblank
    split
    · exact (List.suffix_cons c r).trans hblank
    · split
      · next m hm => exact hname.error hm
      · next name r' hn => exact hname.ok hn

theorem reads_opening (c : CodePoint) (t : Text) : Reads restOf t (opening .lenient c t) := by
  unfold opening
  split
  · exact suffix_openArray t
  · exact reads_openObject t

theorem reads_closing (f : Frame) (v : Value) (t : Text) :
    Reads restOf t (closing .lenient f v t) := by
  have hblank := suffix_skipBlanks .lenient t
  unfold closing
  split
  · exact .problem _ _
  · next c r hb =>
    rw [hb] at hblank
    have hclosed : r <:+ t := (List.suffix_cons c r).trans hblank
    have hnext : Dialect.skipBlanks .lenient r <:+ t := (suffix_skipBlanks .lenient r).trans hclosed
    split
    · split
      · exact hclosed
      · split
        · exact hnext
        · exact .problem _ _
    · split
      · exact hclosed
      · split
        · have hname := (reads_memberName (Dialect.skipBlanks .lenient r)).mono hnext
          split
          · next m hm => exact hname.error hm
          · next name r' hn => exact hname.ok hn
        · exact .problem _ _

/-! ## Whole values -/

/-- **Reading a value leaves an end of the text, or stops with one of its mishaps.** -/
theorem reads_run (frames : List Frame) (place : Place) (t : Text) :
    Reads Prod.snd t (run .lenient frames place t) := by
  -- a step of the loop leaves an end of the text to the steps behind it
  fun_induction run .lenient frames place t with
  | case1 => exact .problem _ _
  | case2 frames c rest _ _ m ho => exact ((reads_opening c rest).error ho).mono (List.suffix_cons _ _)
  | case3 frames c rest _ _ v rest' ho ih =>
    exact ih.mono (((reads_opening c rest).ok ho).trans (List.suffix_cons _ _))
  | case4 frames c rest _ _ f rest' ho ih =>
    exact ih.mono (((reads_opening c rest).ok ho).trans (List.suffix_cons _ _))
  | case5 => exact .tooDeep
  | case6 frames c rest _ m hs => exact (reads_scalar (c :: rest)).error hs
  | case7 frames c rest _ v rest' hs ih => exact ih.mono ((reads_scalar (c :: rest)).ok hs)
  | case8 t v => exact List.suffix_refl t
  | case9 t v f frames m hc => exact (reads_closing f v t).error hc
  | case10 t v f frames w rest hc ih => exact ih.mono ((reads_closing f v t).ok hc)
  | case11 t v f frames g rest hc ih => exact ih.mono ((reads_closing f v t).ok hc)

/-- **A text that has no value stops with one of its mishaps.** -/
theorem in_of_decode (h : decode .lenient t = .error m) : m.In t := by
  have hrun := (reads_run [] .before (Dialect.skipBlanks .lenient t)).mono (suffix_skipBlanks _ t)
  unfold decode at h
  split at h
  · cases h
    exact .problem _ _
  · split at h
    · next m' hm =>
      cases h
      exact hrun.error hm
    · split at h
      · cases h
      · cases h
        exact .problem _ _

end TypeSketch.Json
