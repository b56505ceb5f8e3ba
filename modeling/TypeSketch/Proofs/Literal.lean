import Mathlib.Data.List.Chain
import TypeSketch.Json.Scalar
import TypeSketch.Json.Write
import TypeSketch.Proofs.Names

/-!
# String literals read back

A text is written as a literal of ASCII characters. Reading the literal gives the text back, unless
the text spells a code point as two halves next to each other, which read as one.

* `Text.IsWhole`: no code point of the text is spelled in halves.
* `escapeAscii_cases`: the four ways in which a code point is written.
* `lenientString_escapeAscii`: what was written for a code point is read as it.
* `lenientString_escaped`: **reading a written literal gives the text and what follows it.**
* `quote_append_inj`: **a literal with what follows it determines both.**
-/

namespace TypeSketch

open Json (isHighSurrogate isLowSurrogate)

/-- No two neighbours in a text are the halves of one code point. A text of Unicode scalar values is
whole, since it has no halves at all. -/
def Text.IsWhole (t : Text) : Prop :=
  t.IsChain fun c d => ¬ (isHighSurrogate c.val = true ∧ isLowSurrogate d.val = true)

instance (t : Text) : Decidable t.IsWhole := inferInstanceAs (Decidable (List.IsChain _ _))

theorem Text.IsWhole.of_scalar {t : Text} (h : ∀ c ∈ t, c.isSurrogate = false) : t.IsWhole := by
  induction t with
  | nil => exact .nil
  | cons c t ih =>
    rw [List.forall_mem_cons] at h
    refine List.isChain_cons.2 ⟨fun d _ ⟨hhigh, _⟩ => ?_, ih h.2⟩
    -- a first half is a surrogate
    simp only [isHighSurrogate, Bool.and_eq_true, decide_eq_true_eq] at hhigh
    simp only [CodePoint.isSurrogate, Bool.and_eq_false_iff, decide_eq_false_iff_not] at h
    omega

namespace Json

variable {c : CodePoint} {t rest x : Text}

/-! ## Escapes of sixteen bits -/

theorem hexVal?_hexDigit : ∀ d < 16, (Text.hexDigit d).hexVal? = some d := by decide

theorem hexFour?_hex {n : Nat} (h : n < 0x10000) (rest : Text) :
    hexFour? (Text.hex 4 n ++ rest) = some (n, rest) := by
  have hdigit : ∀ m, (Text.hexDigit (m % 16)).hexVal? = some (m % 16) := fun m =>
    hexVal?_hexDigit _ (Nat.mod_lt _ (by decide))
  have hn : ((n / 16 / 16 / 16 % 16 * 16 + n / 16 / 16 % 16) * 16 + n / 16 % 16) * 16 + n % 16 =
      n := by
    omega
  simp only [Text.hex, List.nil_append, List.cons_append, hexFour?, hdigit, hn]

theorem unicodeEscape_hex {n : Nat} (h : n < 0x10000) (hne : rest ≠ [])
    (hpair : isHighSurrogate n = true →
      ∀ second, rest = ('\\' : CodePoint) :: ('u' : CodePoint) :: second →
      ∃ m after, hexFour? second = some (m, after) ∧ isLowSurrogate m = false) :
    unicodeEscape (Text.hex 4 n ++ rest) = .ok (.ofNat n, rest) := by
  rw [unicodeEscape, hexFour?_hex h]
  match rest with
  | [] => exact absurd rfl hne
  | [c] => rfl
  | slash :: u :: second =>
    dsimp only
    split
    · next hcond =>
      simp only [Bool.and_eq_true, decide_eq_true_eq] at hcond
      obtain ⟨⟨⟨hhigh, -⟩, rfl⟩, rfl⟩ := hcond
      obtain ⟨m, after, hm, hlow⟩ := hpair hhigh second rfl
      rw [hm]
      simp [hlow]
    · rfl

theorem unicodeEscape_pair {n : Nat} (hn : n < 0x100000) (hne : rest ≠ []) :
    unicodeEscape (Text.hex 4 (0xD800 + n / 0x400) ++ (unicodeUnit (0xDC00 + n % 0x400) ++ rest)) =
      .ok (.ofNat (0x10000 + n), rest) := by
  have hunit : unicodeUnit (0xDC00 + n % 0x400) ++ rest =
      ('\\' : CodePoint) :: ('u' : CodePoint) :: (Text.hex 4 (0xDC00 + n % 0x400) ++ rest) := rfl
  have hlength : 0 < rest.length := List.length_pos_iff.2 hne
  have hhigh : isHighSurrogate (0xD800 + n / 0x400) = true := by
    simp only [isHighSurrogate, Bool.and_eq_true, decide_eq_true_eq]
    omega
  have hlow : isLowSurrogate (0xDC00 + n % 0x400) = true := by
    simp only [isLowSurrogate, Bool.and_eq_true, decide_eq_true_eq]
    omega
  have hsum : 0x10000 + (0xD800 + n / 0x400 - 0xD800) * 0x400 + (0xDC00 + n % 0x400 - 0xDC00) =
      0x10000 + n := by
    omega
  rw [unicodeEscape, hunit, hexFour?_hex (by omega)]
  dsimp only
  rw [if_pos, hexFour?_hex (by omega)]
  · dsimp only
    rw [if_pos hlow, ofPair, hsum]
  · simp [hhigh, Text.hex]
    omega

/-! ## Code points -/

theorem ofNat_val (c : CodePoint) : CodePoint.ofNat c.val = c := dif_pos c.val_lt

/-- What is always escaped has a letter for it, or is a control character. -/
theorem escape?_eq_some {e : Text} (h : escape? c = some e) :
    (∃ letter : CodePoint, e = ('\\' : CodePoint) :: [letter] ∧
        simpleEscape? letter = some c ∧ letter ≠ 'u') ∨
      (e = unicodeUnit c.val ∧ c.val < 0x20) := by
  unfold escape? at h
  split at h
  · cases h; subst c; exact .inl ⟨'"', rfl, rfl, by decide⟩
  split at h
  · cases h; subst c; exact .inl ⟨'\\', rfl, rfl, by decide⟩
  split at h
  · cases h; subst c; exact .inl ⟨'n', rfl, rfl, by decide⟩
  split at h
  · cases h; subst c; exact .inl ⟨'r', rfl, rfl, by decide⟩
  split at h
  · cases h; subst c; exact .inl ⟨'t', rfl, rfl, by decide⟩
  split at h
  · next hc => cases h; rw [← ofNat_val c, hc]; exact .inl ⟨'b', rfl, rfl, by decide⟩
  split at h
  · next hc => cases h; rw [← ofNat_val c, hc]; exact .inl ⟨'f', rfl, rfl, by decide⟩
  split at h
  · next hc => cases h; exact .inr ⟨rfl, hc⟩
  · cases h

theorem escape?_eq_none (h : escape? c = none) : c ≠ '"' ∧ c ≠ '\\' ∧ ¬ c.val < 0x20 := by
  unfold escape? at h
  refine ⟨?_, ?_, fun hc => ?_⟩
  · rintro rfl
    cases h
  · rintro rfl
    cases h
  · rw [if_pos hc] at h
    split_ifs at h

/-- **The four ways in which a code point is written**: behind a backslash, as it is, by a number of
sixteen bits, or by two of them. -/
theorem escapeAscii_cases (c : CodePoint) :
    (∃ letter : CodePoint, escapeAscii c = ('\\' : CodePoint) :: [letter] ∧
        simpleEscape? letter = some c ∧ letter ≠ 'u') ∨
    (escapeAscii c = [c] ∧ c ≠ '"' ∧ c ≠ '\\' ∧ ¬ c.val < 0x20) ∨
    (escapeAscii c = unicodeUnit c.val ∧ c.val < 0x10000) ∨
    ∃ n < 0x100000, c = .ofNat (0x10000 + n) ∧ escapeAscii c =
      unicodeUnit (0xD800 + n / 0x400) ++ unicodeUnit (0xDC00 + n % 0x400) := by
  rw [escapeAscii]
  split
  · next e he =>
    exact (escape?_eq_some he).imp_right fun ⟨h, hc⟩ => .inr (.inl ⟨h, by omega⟩)
  · next he =>
    right
    split
    · exact .inl ⟨rfl, escape?_eq_none he⟩
    · right
      split
      · next hc => exact .inl ⟨rfl, hc⟩
      · have hlt := c.val_lt
        have hsum : 0x10000 + (c.val - 0x10000) = c.val := by omega
        exact .inr ⟨c.val - 0x10000, by omega, by rw [hsum, ofNat_val], rfl⟩

/-- What can follow the first half of a code point that stands on its own: anything but an escape of
the second half. -/
def NoLowUnit (rest : Text) : Prop :=
  ∀ second, rest = ('\\' : CodePoint) :: ('u' : CodePoint) :: second →
    ∃ m after, hexFour? second = some (m, after) ∧ isLowSurrogate m = false

/-- **What was written for a code point is read as it.** -/
theorem lenientString_escapeAscii (start acc : Text) (hne : rest ≠ [])
    (hlow : isHighSurrogate c.val = true → NoLowUnit rest) :
    lenientString start acc (escapeAscii c ++ rest) = lenientString start (c :: acc) rest := by
  have hu : ∀ n, unicodeUnit n ++ rest =
      ('\\' : CodePoint) :: ('u' : CodePoint) :: (Text.hex 4 n ++ rest) := fun _ => rfl
  -- reading takes the branch in which the code point was written
  rcases escapeAscii_cases c with ⟨letter, h, hletter, hne'⟩ | ⟨h, hquote, hslash, hc⟩ | ⟨h, hc⟩ |
    ⟨n, hn, hc, h⟩
  · rw [h, List.cons_append, List.singleton_append, lenientString, if_neg (by decide), if_pos rfl,
      if_neg hne', hletter]
  · rw [h, List.singleton_append, lenientString.eq_def]
    dsimp only
    rw [if_neg hquote, if_neg hslash, if_neg hc]
  · rw [h, hu, lenientString, if_neg (by decide), if_pos rfl, if_pos rfl,
      unicodeEscape_hex hc hne hlow, ofNat_val]
  · have hu' : unicodeUnit (0xD800 + n / 0x400) ++ (unicodeUnit (0xDC00 + n % 0x400) ++ rest) =
        ('\\' : CodePoint) :: ('u' : CodePoint) :: (Text.hex 4 (0xD800 + n / 0x400) ++
          (unicodeUnit (0xDC00 + n % 0x400) ++ rest)) := rfl
    rw [h, List.append_assoc, hu', lenientString, if_neg (by decide), if_pos rfl, if_pos rfl,
      unicodeEscape_pair hn hne, hc]

/-! ## Literals -/

theorem NoLowUnit.quote (x : Text) : NoLowUnit ('"' :: x) := by
  intro second h
  cases h

/-- What is written for a code point is no escape of a second half, unless it is one. -/
theorem NoLowUnit.escapeAscii (hc : isLowSurrogate c.val = false) (rest : Text) :
    NoLowUnit (escapeAscii c ++ rest) := by
  intro second hsecond
  rcases escapeAscii_cases c with ⟨letter, h, -, hne⟩ | ⟨h, -, hslash, -⟩ | ⟨h, hlt⟩ | ⟨n, hn, -, h⟩
  · rw [h] at hsecond
    simp only [List.cons_append, List.cons.injEq] at hsecond
    exact absurd hsecond.2.1 hne
  · rw [h] at hsecond
    simp only [List.cons_append, List.cons.injEq] at hsecond
    exact absurd hsecond.1 hslash
  · rw [h] at hsecond
    obtain rfl : Text.hex 4 c.val ++ rest = second := (List.cons.inj (List.cons.inj hsecond).2).2
    exact ⟨c.val, rest, hexFour?_hex hlt rest, hc⟩
  · rw [h, List.append_assoc] at hsecond
    obtain rfl := (List.cons.inj (List.cons.inj hsecond).2).2
    refine ⟨_, _, hexFour?_hex (by omega) _, ?_⟩
    simp only [isLowSurrogate, Bool.and_eq_false_iff, decide_eq_false_iff_not]
    omega

/-- **Reading a written literal gives the text and what follows it.** -/
theorem lenientString_escaped (ht : t.IsWhole) (start acc x : Text) :
    lenientString start acc (t.flatMap escapeAscii ++ ('"' : CodePoint) :: x) =
      .ok (acc.reverse ++ t, x) := by
  induction t generalizing acc with
  | nil =>
    rw [List.flatMap_nil, List.nil_append, lenientString.eq_def, List.append_nil]
    exact if_pos rfl
  | cons c t ih =>
    obtain ⟨hhead, ht⟩ := List.isChain_cons.1 ht
    rw [List.flatMap_cons, List.append_assoc, lenientString_escapeAscii _ _ (by simp), ih ht]
    · simp
    · intro hhigh
      cases t with
      | nil => exact .quote x
      | cons d t =>
        rw [List.flatMap_cons, List.append_assoc]
        exact .escapeAscii (by simpa [hhigh] using hhead d rfl) _

theorem quote_append (t x : Text) :
    quote t ++ x = ('"' : CodePoint) :: (t.flatMap escapeAscii ++ ('"' : CodePoint) :: x) := by
  rw [quote, quoteBy, List.append_assoc, List.append_assoc]
  rfl

/-- **A literal with what follows it determines both.** -/
theorem quote_append_inj {s t x y : Text} (hs : s.IsWhole) (ht : t.IsWhole)
    (h : quote s ++ x = quote t ++ y) : s = t ∧ x = y := by
  rw [quote_append, quote_append, List.cons.injEq] at h
  have hread := (lenientString_escaped hs [] [] x).symm.trans
    ((congrArg _ h.2).trans (lenientString_escaped ht [] [] y))
  simpa using hread

end Json

end TypeSketch
