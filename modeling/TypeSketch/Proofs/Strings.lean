import TypeSketch.Proofs.Encoding
import TypeSketch.Proofs.Portable

/-!
# Strings in either dialect

The lenient dialect reads a string literal code point by code point. The strict one first finds the
end of the literal, then turns its escapes into bytes and decodes these.

* `strictBody_escaped`: the strict dialect finds the end of a written literal.
* `unescape_escaped`: the escapes of a text of Unicode scalar values denote its bytes.
* `string_escaped`: **both dialects read a written literal as its text.**
-/

namespace TypeSketch.Json

variable {c : CodePoint} {t rest : Text}

/-! ## The end of a literal -/

/-- A character of a literal that stands for itself. -/
def IsBodyChar (c : CodePoint) : Prop := c.IsPrintable ∧ c ≠ '"' ∧ c ≠ '\\'

theorem strictBody_char (hc : IsBodyChar c) (start acc rest : Text) :
    strictBody start acc (c :: rest) = strictBody start (c :: acc) rest := by
  obtain ⟨⟨hlow, hhigh⟩, hquote, hslash⟩ := hc
  have htails : tailsAfter? c = some 0 := if_pos (by omega)
  rw [strictBody.eq_def]
  simp only [if_neg hquote, if_neg hslash, if_neg (Nat.not_lt.2 hlow), htails]
  simp

theorem strictBody_row {row : Text} (h : ∀ c ∈ row, IsBodyChar c) (start acc rest : Text) :
    strictBody start acc (row ++ rest) = strictBody start (row.reverse ++ acc) rest := by
  induction row generalizing acc with
  | nil => rfl
  | cons c row ih =>
    rw [List.forall_mem_cons] at h
    rw [List.cons_append, strictBody_char h.1, ih h.2, List.reverse_cons, List.append_assoc,
      List.singleton_append]

theorem strictBody_unicodeUnit {n : Nat} (h : n < 0x10000) (start acc rest : Text) :
    strictBody start acc (unicodeUnit n ++ rest) =
      strictBody start ((unicodeUnit n).reverse ++ acc) rest := by
  have hunit : unicodeUnit n = ('\\' : CodePoint) :: ('u' : CodePoint) :: Text.hex 4 n := rfl
  -- only the backslash and the letter are taken at once; the digits stand for themselves
  have hdigits : ∀ c ∈ Text.hex 4 n, IsBodyChar c :=
    Text.forall_mem_hex (by unfold IsBodyChar; decide) 4 n
  rw [hunit, List.cons_append, List.cons_append, strictBody, if_neg (by decide), if_pos rfl,
    hexFour?_hex h, if_neg (by simp), if_pos (by simp), strictBody_row hdigits]
  simp

/-- The strict dialect goes over what was written for a code point. -/
theorem strictBody_escapeAscii (start acc rest : Text) :
    strictBody start acc (escapeAscii c ++ rest) =
      strictBody start ((escapeAscii c).reverse ++ acc) rest := by
  rcases escapeAscii_cases c with ⟨letter, h, hletter, hne⟩ | ⟨h, hquote, hslash, -⟩ | ⟨h, hc⟩ |
    ⟨n, hn, -, h⟩
  · rw [h, List.cons_append, List.singleton_append, strictBody, if_neg (by decide), if_pos rfl,
      if_neg (by simp [hne]), if_pos (by simp [hletter])]
    rfl
  · have hprintable : c.IsPrintable :=
      isPrintable_of_mem_escapeAscii (h ▸ List.mem_singleton_self c)
    rw [h, List.singleton_append, strictBody_char ⟨hprintable, hquote, hslash⟩]
    rfl
  · rw [h, strictBody_unicodeUnit hc]
  · rw [h, List.append_assoc, strictBody_unicodeUnit (by omega), strictBody_unicodeUnit (by omega),
      List.reverse_append, List.append_assoc]

/-- **The strict dialect finds the end of a written literal.** -/
theorem strictBody_escaped (start acc rest : Text) :
    strictBody start acc (t.flatMap escapeAscii ++ ('"' : CodePoint) :: rest) =
      .ok (acc.reverse ++ t.flatMap escapeAscii, rest) := by
  induction t generalizing acc with
  | nil =>
    rw [List.flatMap_nil, List.nil_append, strictBody.eq_def, List.append_nil]
    exact if_pos rfl
  | cons c t ih =>
    rw [List.flatMap_cons, List.append_assoc, strictBody_escapeAscii, ih, List.reverse_append,
      List.reverse_reverse, List.append_assoc]

/-! ## The bytes of a literal -/

theorem unescape_unicodeUnit {n : Nat} (h : n < 0x10000) (hn : isHighSurrogate n = false)
    (rest : Text) :
    unescape (unicodeUnit n ++ rest) = (CodePoint.ofNat n).utf8 ++ unescape rest := by
  have hunit : unicodeUnit n ++ rest =
      ('\\' : CodePoint) :: ('u' : CodePoint) :: (Text.hex 4 n ++ rest) := rfl
  rw [hunit, unescape, if_pos rfl, if_pos rfl]
  split
  · next hnone =>
    rw [hexFour?_hex h] at hnone
    cases hnone
  · next m rest' hsome =>
    rw [hexFour?_hex h] at hsome
    cases hsome
    rw [if_neg (by simp [hn])]

theorem unescape_pair {n : Nat} (hn : n < 0x100000) (rest : Text) :
    unescape (unicodeUnit (0xD800 + n / 0x400) ++ (unicodeUnit (0xDC00 + n % 0x400) ++ rest)) =
      (CodePoint.ofNat (0x10000 + n)).utf8 ++ unescape rest := by
  have hunit : ∀ m rest, unicodeUnit m ++ rest =
      ('\\' : CodePoint) :: ('u' : CodePoint) :: (Text.hex 4 m ++ rest) := fun _ _ => rfl
  have hhigh : isHighSurrogate (0xD800 + n / 0x400) = true := by
    simp only [isHighSurrogate, Bool.and_eq_true, decide_eq_true_eq]
    omega
  have hpair : ofPair (0xD800 + n / 0x400) (0xDC00 + (0xDC00 + n % 0x400) % 0x400) =
      .ofNat (0x10000 + n) := by
    have hsum : 0x10000 + (0xD800 + n / 0x400 - 0xD800) * 0x400 +
        (0xDC00 + (0xDC00 + n % 0x400) % 0x400 - 0xDC00) = 0x10000 + n := by
      omega
    unfold ofPair
    rw [hsum]
  have hfirst := hexFour?_hex (n := 0xD800 + n / 0x400) (by omega)
    (unicodeUnit (0xDC00 + n % 0x400) ++ rest)
  have hsecond := hexFour?_hex (n := 0xDC00 + n % 0x400) (by omega) rest
  rw [hunit, unescape, if_pos rfl, if_pos rfl]
  split
  · next hnone =>
    rw [hfirst] at hnone
    cases hnone
  · next m rest' hsome =>
    rw [hfirst, hunit] at hsome
    cases hsome
    -- the first half takes the escape behind it, which is the second half
    simp only [hhigh, if_true]
    rw [if_pos (by decide)]
    split
    · next hnone =>
      rw [hsecond] at hnone
      cases hnone
    · next m rest' hsome =>
      rw [hsecond] at hsome
      cases hsome
      rw [hpair]

/-- What was written for a scalar value denotes its bytes. -/
theorem unescape_escapeAscii (hc : c.isSurrogate = false) (rest : Text) :
    unescape (escapeAscii c ++ rest) = c.utf8 ++ unescape rest := by
  rcases escapeAscii_cases c with ⟨letter, h, hletter, hne⟩ | ⟨h, -, hslash, -⟩ | ⟨h, hlt⟩ |
    ⟨n, hn, hpair, h⟩
  · rw [h, List.cons_append, List.singleton_append, unescape, if_pos rfl, if_neg hne, hletter]
    rfl
  · have hprintable : c.IsPrintable :=
      isPrintable_of_mem_escapeAscii (h ▸ List.mem_singleton_self c)
    have hbyte : c.utf8 = [UInt8.ofNat c.val] := if_pos (Nat.lt_succ_of_lt hprintable.2)
    rw [h, List.singleton_append, unescape.eq_def, hbyte]
    simp only [if_neg hslash, List.singleton_append]
  · have hhigh : isHighSurrogate c.val = false := by
      simp only [CodePoint.isSurrogate, Bool.and_eq_false_iff, decide_eq_false_iff_not] at hc
      simp only [isHighSurrogate, Bool.and_eq_false_iff, decide_eq_false_iff_not]
      omega
    rw [h, unescape_unicodeUnit hlt hhigh, ofNat_val]
  · rw [h, hpair, List.append_assoc, unescape_pair hn]

theorem unescape_escaped (ht : ∀ c ∈ t, c.isSurrogate = false) :
    unescape (t.flatMap escapeAscii) = t.utf8 := by
  induction t with
  | nil => rw [List.flatMap_nil, unescape]; rfl
  | cons c t ih =>
    rw [List.forall_mem_cons] at ht
    rw [List.flatMap_cons, unescape_escapeAscii ht.1, ih ht.2, Text.utf8_cons]

/-- **Both dialects read a written literal as its text.** -/
theorem string_escaped (d : Dialect) (ht : ∀ c ∈ t, c.isSurrogate = false) (rest : Text) :
    string d (t.flatMap escapeAscii ++ ('"' : CodePoint) :: rest) = .ok (t, rest) := by
  cases d with
  | lenient => exact lenientString_escaped (.of_scalar ht) _ [] rest
  | strict =>
    unfold string
    simp only [strictBody_escaped, List.reverse_nil, List.nil_append, unescape_escaped ht,
      Utf8.decode_utf8 ht]

end TypeSketch.Json
