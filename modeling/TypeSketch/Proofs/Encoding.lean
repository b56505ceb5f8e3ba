import TypeSketch.Proofs.Literal
import TypeSketch.Text.Utf8.Blocks

/-!
# UTF-8 read back

A text of Unicode scalar values is written as bytes and read back, all at once or block by block. A
block may end inside of the bytes of one code point, which are then carried over to the next block.

* `Sequence`: the bytes of one code point, as they are read.
* `sequence_utf8`: a scalar value is written as such a sequence.
* `decodeFrom_utf8`: **what was written for a text is read as it, whatever follows.**
* `decodeBlocks_utf8`: **it does not matter where the blocks are cut.**
-/

namespace TypeSketch

theorem Text.utf8_cons (c : CodePoint) (t : Text) : Text.utf8 (c :: t) = c.utf8 ++ t.utf8 :=
  List.flatMap_cons

theorem Text.utf8_append (t u : Text) : Text.utf8 (t ++ u) = t.utf8 ++ u.utf8 :=
  List.flatMap_append

namespace Utf8

variable {c : CodePoint} {t : Text} {b : UInt8} {bytes rest : List UInt8} {n : Nat}

/-- The number whose leading bits are followed by those of some continuation bytes. -/
def joined (bits : Nat) (ts : List UInt8) : Nat :=
  ts.foldl (fun n t => n * 0x40 + (t.toNat - 0x80)) bits

/-- **The bytes of one code point, as they are read**: one below `0x80`, or one that begins a longer
sequence, a second one within its bounds, and continuation bytes. -/
inductive Sequence : Nat → List UInt8 → Prop where
  | ascii {b : UInt8} (h : b < 0x80) : Sequence b.toNat [b]
  | longer {b c low high : UInt8} {bits : Nat} {ts : List UInt8} (hb : ¬ b < 0x80)
    (hlead : lead? b = some (bits, low, high, ts.length)) (hc : (low ≤ c && c ≤ high) = true)
    (hts : ∀ t ∈ ts, isTail t = true) :
    Sequence (joined (bits * 0x40 + (c.toNat - 0x80)) ts) (b :: c :: ts)

theorem Sequence.ne_nil (h : Sequence n bytes) : bytes ≠ [] := by
  cases h <;> exact List.cons_ne_nil _ _

theorem toNat_ofNat {k : Nat} (h : k < 0x100) : (UInt8.ofNat k).toNat = k :=
  UInt8.toNat_ofNat_of_lt h

theorem not_lt_ofNat {k : Nat} (hlow : 0x80 ≤ k) (h : k < 0x100) : ¬ UInt8.ofNat k < 0x80 := by
  rw [UInt8.lt_iff_toNat_lt, toNat_ofNat h]
  exact Nat.not_lt.2 hlow

theorem within_ofNat {k : Nat} {low high : UInt8} (hlow : low.toNat ≤ k) (hhigh : k ≤ high.toNat) :
    (low ≤ UInt8.ofNat k && UInt8.ofNat k ≤ high) = true := by
  have hk : k < 0x100 := by have := high.toNat_lt; omega
  rw [Bool.and_eq_true, decide_eq_true_eq, decide_eq_true_eq, UInt8.le_iff_toNat_le,
    UInt8.le_iff_toNat_le, toNat_ofNat hk]
  exact ⟨hlow, hhigh⟩

theorem isTail_ofNat (k : Nat) : isTail (UInt8.ofNat (0x80 + k % 0x40)) = true :=
  within_ofNat (by simp) (by simp; omega)

theorem sequence_two (hlow : 0x80 ≤ n) (hhigh : n < 0x800) :
    Sequence n [UInt8.ofNat (0xC0 + n / 0x40), UInt8.ofNat (0x80 + n % 0x40)] := by
  have hlead : lead? (UInt8.ofNat (0xC0 + n / 0x40)) = some (n / 0x40, 0x80, 0xBF, 0) := by
    have hbits : 0xC0 + n / 0x40 - 0xC0 = n / 0x40 := by omega
    unfold lead?
    rw [toNat_ofNat (by omega), if_neg (by omega), if_pos (by omega), hbits]
  have hvalue : n / 0x40 * 0x40 + ((UInt8.ofNat (0x80 + n % 0x40)).toNat - 0x80) = n := by
    rw [toNat_ofNat (by omega)]
    omega
  have h := @Sequence.longer _ _ _ _ _ [] (not_lt_ofNat (by omega) (by omega)) hlead
    (isTail_ofNat n) nofun
  rw [joined, List.foldl_nil, hvalue] at h
  exact h

/-- Three bytes hold what is beyond two, but no surrogate. -/
theorem lead?_three (hlow : 0x800 ≤ n) (hhigh : n < 0x10000) (hn : n < 0xD800 ∨ 0xE000 ≤ n) :
    ∃ low high, lead? (UInt8.ofNat (0xE0 + n / 0x1000)) = some (n / 0x1000, low, high, 1) ∧
      low.toNat ≤ 0x80 + n / 0x40 % 0x40 ∧ 0x80 + n / 0x40 % 0x40 ≤ high.toNat := by
  unfold lead?
  rw [toNat_ofNat (by omega)]
  -- the bounds of the second byte keep overlong sequences and surrogates out
  by_cases h0 : n / 0x1000 = 0
  · refine ⟨0xA0, 0xBF, ?_, ?_, ?_⟩
    · rw [h0]; rfl
    · simp; omega
    · simp; omega
  · by_cases hd : n / 0x1000 = 0xD
    · refine ⟨0x80, 0x9F, ?_, ?_, ?_⟩
      · rw [hd]; rfl
      · simp
      · simp; omega
    · have hbits : 0xE0 + n / 0x1000 - 0xE0 = n / 0x1000 := by omega
      refine ⟨0x80, 0xBF, ?_, by simp, by simp; omega⟩
      rw [if_neg (by omega), if_neg (by omega), if_neg (by omega), if_neg (by omega),
        if_pos (by omega), hbits]

theorem sequence_three (hlow : 0x800 ≤ n) (hhigh : n < 0x10000) (hn : n < 0xD800 ∨ 0xE000 ≤ n) :
    Sequence n [UInt8.ofNat (0xE0 + n / 0x1000), UInt8.ofNat (0x80 + n / 0x40 % 0x40),
      UInt8.ofNat (0x80 + n % 0x40)] := by
  obtain ⟨low, high, hlead, hsecond, hsecond'⟩ := lead?_three hlow hhigh hn
  have hvalue : (n / 0x1000 * 0x40 + ((UInt8.ofNat (0x80 + n / 0x40 % 0x40)).toNat - 0x80)) * 0x40 +
      ((UInt8.ofNat (0x80 + n % 0x40)).toNat - 0x80) = n := by
    rw [toNat_ofNat (by omega), toNat_ofNat (by omega)]
    omega
  have h := @Sequence.longer _ _ _ _ _ [UInt8.ofNat (0x80 + n % 0x40)]
    (not_lt_ofNat (by omega) (by omega)) hlead (within_ofNat hsecond hsecond')
    (List.forall_mem_singleton.2 (isTail_ofNat n))
  rw [joined, List.foldl_cons, List.foldl_nil, hvalue] at h
  exact h

/-- Four bytes hold the rest. -/
theorem lead?_four (hlow : 0x10000 ≤ n) (hhigh : n < 0x110000) :
    ∃ low high, lead? (UInt8.ofNat (0xF0 + n / 0x40000)) = some (n / 0x40000, low, high, 2) ∧
      low.toNat ≤ 0x80 + n / 0x1000 % 0x40 ∧ 0x80 + n / 0x1000 % 0x40 ≤ high.toNat := by
  unfold lead?
  rw [toNat_ofNat (by omega)]
  -- the bounds of the second byte keep overlong sequences and what is beyond Unicode out
  by_cases h0 : n / 0x40000 = 0
  · refine ⟨0x90, 0xBF, ?_, ?_, ?_⟩
    · rw [h0]; rfl
    · simp; omega
    · simp; omega
  · by_cases h4 : n / 0x40000 = 4
    · refine ⟨0x80, 0x8F, ?_, ?_, ?_⟩
      · rw [h4]; rfl
      · simp
      · simp; omega
    · have hbits : 0xF0 + n / 0x40000 - 0xF0 = n / 0x40000 := by omega
      refine ⟨0x80, 0xBF, ?_, by simp, by simp; omega⟩
      rw [if_neg (by omega), if_neg (by omega), if_neg (by omega), if_neg (by omega),
        if_neg (by omega), if_neg (by omega), if_pos (by omega), hbits]

theorem sequence_four (hlow : 0x10000 ≤ n) (hhigh : n < 0x110000) :
    Sequence n [UInt8.ofNat (0xF0 + n / 0x40000), UInt8.ofNat (0x80 + n / 0x1000 % 0x40),
      UInt8.ofNat (0x80 + n / 0x40 % 0x40), UInt8.ofNat (0x80 + n % 0x40)] := by
  obtain ⟨low, high, hlead, hsecond, hsecond'⟩ := lead?_four hlow hhigh
  have hvalue : ((n / 0x40000 * 0x40 +
      ((UInt8.ofNat (0x80 + n / 0x1000 % 0x40)).toNat - 0x80)) * 0x40 +
      ((UInt8.ofNat (0x80 + n / 0x40 % 0x40)).toNat - 0x80)) * 0x40 +
      ((UInt8.ofNat (0x80 + n % 0x40)).toNat - 0x80) = n := by
    rw [toNat_ofNat (by omega), toNat_ofNat (by omega), toNat_ofNat (by omega)]
    omega
  have htails : ∀ t ∈ [UInt8.ofNat (0x80 + n / 0x40 % 0x40), UInt8.ofNat (0x80 + n % 0x40)],
      isTail t = true :=
    List.forall_mem_cons.2 ⟨isTail_ofNat _, List.forall_mem_singleton.2 (isTail_ofNat n)⟩
  have h := Sequence.longer (not_lt_ofNat (by omega) (by omega)) hlead
    (within_ofNat hsecond hsecond') htails
  rw [joined, List.foldl_cons, List.foldl_cons, List.foldl_nil, hvalue] at h
  exact h

/-- **A scalar value is written as the bytes of one code point.** -/
theorem sequence_utf8 (hc : c.isSurrogate = false) : Sequence c.val c.utf8 := by
  have hlt := c.val_lt
  have hscalar : c.val < 0xD800 ∨ 0xE000 ≤ c.val := by
    simp only [CodePoint.isSurrogate, Bool.and_eq_false_iff, decide_eq_false_iff_not] at hc
    omega
  unfold CodePoint.utf8
  simp only
  split
  · next h =>
    have hb : UInt8.ofNat c.val < 0x80 := by
      rw [UInt8.lt_iff_toNat_lt, toNat_ofNat (by omega)]
      exact h
    have hone := Sequence.ascii hb
    rwa [toNat_ofNat (by omega)] at hone
  split
  · next h => exact sequence_two (by omega) h
  split
  · next h => exact sequence_three (by omega) h hscalar
  · exact sequence_four (by omega) hlt

/-! ## Reading -/

theorem tails_append {bits : Nat} {seen ts : List UInt8} (hts : ∀ t ∈ ts, isTail t = true)
    (rest : List UInt8) :
    tails bits ts.length seen (ts ++ rest) = .ok (joined bits ts, rest) := by
  induction ts generalizing bits seen with
  | nil => rfl
  | cons t ts ih =>
    rw [List.forall_mem_cons] at hts
    rw [List.length_cons, List.cons_append, tails, if_pos hts.1, ih hts.2, joined, joined,
      List.foldl_cons]

/-- The bytes of a code point are read as it, whatever follows. -/
theorem Sequence.next {tail : List UInt8} (h : Sequence n (b :: tail)) (rest : List UInt8) :
    Utf8.next b (tail ++ rest) = .ok (n, rest) := by
  cases h with
  | ascii hb => exact if_pos hb
  | @longer b c low high bits ts hb hlead hc hts =>
    unfold Utf8.next
    rw [if_neg hb, hlead, List.cons_append]
    simp only [if_pos hc]
    exact tails_append hts rest

theorem tails_begun {bits count : Nat} {seen ts : List UInt8} (hts : ∀ t ∈ ts, isTail t = true)
    (hfew : ts.length < count) :
    tails bits count seen ts = .error (seen.reverse ++ ts, .endOfData) := by
  induction ts generalizing bits count seen with
  | nil =>
    obtain ⟨count, rfl⟩ := Nat.exists_eq_add_one_of_ne_zero (Nat.ne_of_gt hfew)
    rw [tails, List.append_nil]
  | cons t ts ih =>
    obtain ⟨count, rfl⟩ := Nat.exists_eq_add_one_of_ne_zero (Nat.ne_of_gt (Nat.zero_lt_of_lt hfew))
    rw [List.forall_mem_cons] at hts
    rw [tails, if_pos hts.1, ih hts.2 (by simpa using hfew)]
    simp

/-- The bytes of a code point that was cut off are at the end of the data. -/
theorem Sequence.begun {tail cut : List UInt8} (h : Sequence n (b :: (tail ++ cut)))
    (hcut : cut ≠ []) : Utf8.next b tail = .error (b :: tail, .endOfData) := by
  generalize hwhole : tail ++ cut = whole at h
  cases h with
  | ascii hb => exact absurd (List.append_eq_nil_iff.1 hwhole).2 hcut
  | @longer b c low high bits ts hb hlead hc hts =>
    unfold Utf8.next
    rw [if_neg hb, hlead]
    cases tail with
    | nil => rfl
    | cons d tail =>
      obtain ⟨rfl, rfl⟩ := List.cons.inj hwhole
      have hpos := List.length_pos_iff.2 hcut
      have hfew : tail.length < (tail ++ cut).length := by
        rw [List.length_append]
        omega
      simp only [if_pos hc]
      exact tails_begun (fun t ht => hts t (List.mem_append_left _ ht)) hfew

theorem decodeFrom_sequence {tail : List UInt8} (h : Sequence n (b :: tail)) (offset : Nat)
    (before : Text) (rest : List UInt8) :
    ∃ offset', decodeFrom offset before (b :: tail ++ rest) =
      decodeFrom offset' (.ofNat n :: before) rest := by
  rw [List.cons_append, decodeFrom]
  split
  · next seen reason hnext =>
    rw [h.next] at hnext
    cases hnext
  · next n' rest' hnext =>
    rw [h.next] at hnext
    cases hnext
    exact ⟨_, rfl⟩

/-- **What was written for a text is read as it**, whatever follows. -/
theorem decodeFrom_utf8 (ht : ∀ c ∈ t, c.isSurrogate = false) (offset : Nat) (before : Text)
    (rest : List UInt8) :
    ∃ offset', decodeFrom offset before (t.utf8 ++ rest) =
      decodeFrom offset' (t.reverse ++ before) rest := by
  induction t generalizing offset before with
  | nil => exact ⟨offset, rfl⟩
  | cons c t ih =>
    rw [List.forall_mem_cons] at ht
    have hsequence := sequence_utf8 ht.1
    obtain ⟨b, tail, hc⟩ := List.exists_cons_of_ne_nil hsequence.ne_nil
    rw [hc] at hsequence
    obtain ⟨offset₁, hfirst⟩ := decodeFrom_sequence hsequence offset before (Text.utf8 t ++ rest)
    obtain ⟨offset₂, hothers⟩ := ih ht.2 offset₁ (c :: before)
    refine ⟨offset₂, ?_⟩
    rw [Text.utf8_cons, hc, List.append_assoc, hfirst, Json.ofNat_val, hothers, List.reverse_cons,
      List.append_assoc, List.singleton_append]

theorem decode_utf8 (ht : ∀ c ∈ t, c.isSurrogate = false) : decode t.utf8 = (t, none) := by
  obtain ⟨offset, h⟩ := decodeFrom_utf8 ht 0 [] []
  rw [List.append_nil, List.append_nil, decodeFrom, List.reverse_reverse] at h
  exact h

/-! ## Blocks -/

/-- What a block may end in: nothing, or the bytes of the next code point without the last of them.
-/
def Begins (t : Text) (begun : List UInt8) : Prop :=
  begun = [] ∨ ∃ c rest cut, t = c :: rest ∧ c.utf8 = begun ++ cut ∧ cut ≠ []

/-- A block holds whole code points and the beginning of one. -/
theorem exists_of_prefix_utf8 (h : bytes <+: t.utf8) :
    ∃ t₁ t₂ begun, t = t₁ ++ t₂ ∧ bytes = t₁.utf8 ++ begun ∧ Begins t₂ begun := by
  induction t generalizing bytes with
  | nil => exact ⟨[], [], [], rfl, List.prefix_nil.1 h, .inl rfl⟩
  | cons c t ih =>
    have h : bytes <+: c.utf8 ++ Text.utf8 t := h
    -- the block ends inside of the first code point or behind it
    rcases List.prefix_or_prefix_of_prefix h (List.prefix_append _ _) with ⟨cut, hcut⟩ | ⟨more, rfl⟩
    · by_cases hwhole : cut = []
      · rw [hwhole, List.append_nil] at hcut
        refine ⟨[c], t, [], rfl, ?_, .inl rfl⟩
        simp [Text.utf8, hcut]
      · exact ⟨[], c :: t, bytes, rfl, rfl, .inr ⟨c, t, cut, rfl, hcut.symm, hwhole⟩⟩
    · obtain ⟨t₁, t₂, begun, rfl, rfl, hbegun⟩ := ih ((List.prefix_append_right_inj _).1 h)
      refine ⟨c :: t₁, t₂, begun, rfl, ?_, hbegun⟩
      simp [Text.utf8]

/-- A block is read up to the code point that was begun in it. -/
theorem decode_begun {t₂ : Text} {begun : List UInt8} (ht : ∀ c ∈ t, c.isSurrogate = false)
    (ht₂ : ∀ c ∈ t₂, c.isSurrogate = false) (hbegun : Begins t₂ begun) :
    decode (t.utf8 ++ begun) = (t, none) ∧ begun = [] ∨
      ∃ offset, decode (t.utf8 ++ begun) = (t, some ⟨offset, begun, .endOfData⟩) := by
  rcases hbegun with rfl | ⟨c, rest, cut, rfl, hc, hcut⟩
  · left
    rw [List.append_nil]
    exact ⟨decode_utf8 ht, rfl⟩
  · cases begun with
    | nil =>
      left
      rw [List.append_nil]
      exact ⟨decode_utf8 ht, rfl⟩
    | cons b tail =>
      right
      have hsequence := sequence_utf8 (ht₂ c List.mem_cons_self)
      rw [hc, List.cons_append] at hsequence
      obtain ⟨offset, h⟩ := decodeFrom_utf8 ht 0 [] (b :: tail)
      refine ⟨offset, ?_⟩
      rw [decode, h, decodeFrom]
      split
      · next seen reason hnext =>
        rw [hsequence.begun hcut] at hnext
        cases hnext
        simp
      · next n' rest' hnext =>
        rw [hsequence.begun hcut] at hnext
        cases hnext

/-- No text is begun by all of its bytes but the one without any. -/
theorem eq_nil_of_begins (hbegun : Begins t t.utf8) : t = [] := by
  rcases hbegun with h | ⟨c, rest, cut, rfl, hc, hcut⟩
  · cases t with
    | nil => rfl
    | cons c rest =>
      have hpos : 0 < c.utf8.length := by
        rw [CodePoint.length_utf8]
        unfold CodePoint.utf8Size
        split_ifs <;> decide
      rw [Text.utf8_cons] at h
      rw [(List.append_eq_nil_iff.1 h).1] at hpos
      exact absurd hpos (by decide)
  · have hlength := congrArg List.length hc
    have hpos := List.length_pos_iff.2 hcut
    rw [Text.utf8_cons, List.length_append, List.length_append] at hlength
    omega

/-- Blocks are read to the end, given the code point that was begun in the one before them. -/
theorem decodeBlocksFrom_utf8 {size later : Nat} {begun : List UInt8} (hsize : 0 < size)
    (hlater : 0 < later) (ht : ∀ c ∈ t, c.isSurrogate = false) (hbegun : Begins t begun)
    (hbytes : begun ++ bytes = t.utf8) :
    decodeBlocksFrom size later begun bytes = (t, none) := by
  -- on the bytes that are left; what one block leaves begun goes in front of the next one
  induction hlength : bytes.length using Nat.strong_induction_on
    generalizing size begun bytes t with
  | _ length ih =>
    cases bytes with
    | nil =>
      rw [List.append_nil] at hbytes
      rw [hbytes] at hbegun
      obtain rfl := eq_nil_of_begins hbegun
      rw [decodeBlocksFrom, hbytes, decode_utf8 ht]
    | cons b rest =>
      have hprefix : begun ++ (b :: rest).take size <+: t.utf8 :=
        ⟨(b :: rest).drop size, by rw [List.append_assoc, List.take_append_drop, hbytes]⟩
      obtain ⟨t₁, t₂, begun', rfl, hblock, hbegun'⟩ := exists_of_prefix_utf8 hprefix
      have hdrop : (b :: rest).drop size = rest.drop (size - 1) := by
        obtain ⟨size, rfl⟩ := Nat.exists_eq_add_one_of_ne_zero (Nat.ne_of_gt hsize)
        rfl
      have hbehind : begun' ++ rest.drop (size - 1) = t₂.utf8 := by
        rw [← List.take_append_drop size (b :: rest), ← List.append_assoc, hblock,
          List.append_assoc, Text.utf8_append, hdrop] at hbytes
        exact List.append_cancel_left hbytes
      have ht₁ : ∀ c ∈ t₁, c.isSurrogate = false := fun c hc => ht c (List.mem_append_left _ hc)
      have ht₂ : ∀ c ∈ t₂, c.isSurrogate = false := fun c hc => ht c (List.mem_append_right _ hc)
      have hless : (rest.drop (size - 1)).length < length := by
        rw [← hlength, List.length_drop, List.length_cons]
        omega
      have hmore := ih _ hless hlater ht₂ hbegun' hbehind rfl
      rw [decodeBlocksFrom, hblock]
      rcases decode_begun ht₁ ht₂ hbegun' with ⟨hdecode, rfl⟩ | ⟨offset, hdecode⟩
      · simp only [hdecode, hmore]
      · simp only [hdecode, hmore, if_true]

/-- **It does not matter where the blocks are cut.** -/
theorem decodeBlocks_utf8 {later : Nat} (hlater : 0 < later)
    (ht : ∀ c ∈ t, c.isSurrogate = false) : decodeBlocks later t.utf8 = (t, none) :=
  decodeBlocksFrom_utf8 (by decide) hlater ht (.inl rfl) rfl

end Utf8

end TypeSketch
