import TypeSketch.Text.Utf8

/-!
# UTF-8 in blocks

A file is decoded block by block, and a flaw is counted from where its block begins.

* `Utf8.decodeBlocks`: the text of the blocks in front of the first flaw, and that flaw.
-/

namespace TypeSketch.Utf8

/-- The number of bytes of the first block. -/
def blockSize : Nat := 8192

/-- The number of bytes of a block behind the first where a file is read as a whole. -/
def wholeSize : Nat := 253952

/-- The text of the blocks in front of the first flaw, and that flaw. The first block has a size,
and the others have another one. A sequence may go on in the next block and is then counted as a
part of that one, given here by its bytes. -/
def decodeBlocksFrom (size later : Nat) (begun bytes : List UInt8) : Text × Option Flaw :=
  match bytes with
  | [] => ([], (decode begun).2)
  | b :: rest =>
    match decode (begun ++ (b :: rest).take size) with
    | (t, none) =>
      let (more, flaw) := decodeBlocksFrom later later [] (rest.drop (size - 1))
      (t ++ more, flaw)
    | (t, some flaw) =>
      if flaw.reason = .endOfData then
        let (more, flaw) := decodeBlocksFrom later later flaw.bytes (rest.drop (size - 1))
        (t ++ more, flaw)
      else ([], some flaw)
termination_by bytes.length
decreasing_by all_goals simp only [List.length_drop, List.length_cons]; omega

/-- The text of the blocks in front of the first flaw, and that flaw, for a size of the blocks
behind the first. -/
def decodeBlocks (later : Nat) (bytes : List UInt8) : Text × Option Flaw :=
  decodeBlocksFrom blockSize later [] bytes

end TypeSketch.Utf8
