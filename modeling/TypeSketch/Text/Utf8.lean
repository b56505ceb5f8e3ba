import TypeSketch.Text

/-!
# UTF-8

* `CodePoint.utf8`, `Text.utf8`: the bytes of a text.
* `Text.utf8Size`: how many bytes a text takes, without writing them out.
* `Utf8.decode`: the text of some bytes up to the first flaw, and that flaw.
* `Utf8.Flaw.message`: how a flaw is reported.
-/

namespace TypeSketch

/-- The bytes that encode a code point; a surrogate is encoded like its neighbours. -/
def CodePoint.utf8 (c : CodePoint) : List UInt8 :=
  let n := c.val
  let tail (k : Nat) : UInt8 := UInt8.ofNat (0x80 + k % 0x40)
  if n < 0x80 then [UInt8.ofNat n]
  else if n < 0x800 then [UInt8.ofNat (0xC0 + n / 0x40), tail n]
  else if n < 0x10000 then [UInt8.ofNat (0xE0 + n / 0x1000), tail (n / 0x40), tail n]
  else [UInt8.ofNat (0xF0 + n / 0x40000), tail (n / 0x1000), tail (n / 0x40), tail n]

/-- The number of bytes that encode a code point. -/
def CodePoint.utf8Size (c : CodePoint) : Nat :=
  if c.val < 0x80 then 1 else if c.val < 0x800 then 2 else if c.val < 0x10000 then 3 else 4

theorem CodePoint.length_utf8 (c : CodePoint) : c.utf8.length = c.utf8Size := by
  unfold utf8 utf8Size
  simp only
  split
  · rfl
  · split
    · rfl
    · split <;> rfl

/-- The bytes that encode a text. -/
def Text.utf8 (t : Text) : List UInt8 := t.flatMap CodePoint.utf8

/-- The number of bytes that encode a text. -/
def Text.utf8Size (t : Text) : Nat := t.foldl (fun n c => n + c.utf8Size) 0

namespace Utf8

/-- Why some bytes are not UTF-8. -/
inductive Reason where
  | badStart
  | badContinuation
  | endOfData
deriving DecidableEq

/-- The first place where bytes stop being UTF-8: the offset of the sequence that fails, the bytes
of it up to the failure, and what is wrong. -/
structure Flaw where
  offset : Nat
  bytes : List UInt8
  reason : Reason
deriving DecidableEq

/-- A continuation byte. -/
def isTail (b : UInt8) : Bool := 0x80 ≤ b && b ≤ 0xBF

/-- For a byte that begins a longer sequence: the bits it gives, the bounds of the second byte and
how many bytes come after the second. -/
def lead? (b : UInt8) : Option (Nat × UInt8 × UInt8 × Nat) :=
  let n := b.toNat
  if n < 0xC2 then none
  else if n < 0xE0 then some (n - 0xC0, 0x80, 0xBF, 0)
  else if n = 0xE0 then some (0, 0xA0, 0xBF, 1)
  else if n = 0xED then some (0xD, 0x80, 0x9F, 1)
  else if n < 0xF0 then some (n - 0xE0, 0x80, 0xBF, 1)
  else if n = 0xF0 then some (0, 0x90, 0xBF, 2)
  else if n < 0xF4 then some (n - 0xF0, 0x80, 0xBF, 2)
  else if n = 0xF4 then some (4, 0x80, 0x8F, 2)
  else none

/-- The code point whose leading bits are given and whose next `count` bytes come first in the
list, with the rest of the list; or the bytes that fit and what is wrong with the one that does
not. -/
def tails (bits : Nat) :
    Nat → List UInt8 → List UInt8 → Except (List UInt8 × Reason) (Nat × List UInt8)
  | 0, _, rest => .ok (bits, rest)
  | _ + 1, seen, [] => .error (seen.reverse, .endOfData)
  | count + 1, seen, b :: rest =>
    if isTail b then tails (bits * 0x40 + (b.toNat - 0x80)) count (b :: seen) rest
    else .error (seen.reverse, .badContinuation)

theorem tails_length {bits count : Nat} {seen bytes : List UInt8} {r : Nat × List UInt8}
    (h : tails bits count seen bytes = .ok r) : r.2.length ≤ bytes.length := by
  induction count generalizing bits seen bytes with
  | zero => simp only [tails, Except.ok.injEq] at h; subst h; exact Nat.le_refl _
  | succ count ih =>
    cases bytes with
    | nil => simp [tails] at h
    | cons b rest =>
      rw [tails] at h
      split at h
      · have := ih h; simp only [List.length_cons]; omega
      · simp at h

/-- The first code point of some bytes and the bytes behind it. -/
def next (b : UInt8) (rest : List UInt8) : Except (List UInt8 × Reason) (Nat × List UInt8) :=
  if b < 0x80 then .ok (b.toNat, rest)
  else match lead? b with
    | none => .error ([b], .badStart)
    | some (bits, low, high, more) =>
      match rest with
      | [] => .error ([b], .endOfData)
      | c :: rest =>
        if low ≤ c && c ≤ high then tails (bits * 0x40 + (c.toNat - 0x80)) more [c, b] rest
        else .error ([b], .badContinuation)

theorem next_length {b : UInt8} {rest : List UInt8} {r : Nat × List UInt8}
    (h : next b rest = .ok r) : r.2.length ≤ rest.length := by
  unfold next at h
  by_cases hb : b < 0x80
  · rw [if_pos hb] at h
    cases h
    exact Nat.le_refl _
  · rw [if_neg hb] at h
    cases hl : lead? b with
    | none => rw [hl] at h; cases h
    | some shape =>
      obtain ⟨bits, low, high, more⟩ := shape
      rw [hl] at h
      cases rest with
      | nil => cases h
      | cons c rest =>
        by_cases hc : (low ≤ c && c ≤ high) = true
        · simp only [if_pos hc] at h
          have := tails_length h
          simp only [List.length_cons]
          omega
        · simp only [if_neg hc] at h
          cases h

/-- The text of some bytes that begin at an offset, with the text before them in reverse, up to
the first flaw. -/
def decodeFrom (offset : Nat) (before : Text) : List UInt8 → Text × Option Flaw
  | [] => (before.reverse, none)
  | b :: rest =>
    match h : next b rest with
    | .error (bytes, reason) => (before.reverse, some ⟨offset, bytes, reason⟩)
    | .ok (n, rest') =>
      have := next_length h
      decodeFrom (offset + (rest.length + 1 - rest'.length)) (CodePoint.ofNat n :: before) rest'
termination_by bytes => bytes.length
decreasing_by simp only [List.length_cons]; simp only at this; omega

/-- The text of some bytes up to the first flaw, and that flaw. -/
def decode (bytes : List UInt8) : Text × Option Flaw := decodeFrom 0 [] bytes

/-- How a flaw is reported: the bytes that fail, where they are, and why. -/
def Flaw.message (f : Flaw) : Text :=
  let place : Text := match f.bytes with
    | [b] => ("byte 0x" : Text) ++ Text.hex 2 b.toNat ++ " in position " ++ Text.decimal f.offset
    | bytes => ("bytes in position " : Text) ++ Text.decimal f.offset ++ "-" ++
        Text.decimal (f.offset + bytes.length - 1)
  let why : Text := match f.reason with
    | .badStart => "invalid start byte"
    | .badContinuation => "invalid continuation byte"
    | .endOfData => "unexpected end of data"
  ("'utf-8' codec can't decode " : Text) ++ place ++ ": " ++ why

end Utf8

end TypeSketch
