import TypeSketch.Text

/-!
# Names for nested types

Nested types are called after the root type: its name with a suffix, and from the second one on
with a number behind it.

* `Namer.candidate`: the sequence of names.
* `Namer.next`: the next name of the sequence, the name of the root left out.
* `Namer.take`: the names of several calls.
-/

namespace TypeSketch

/-- Hands out the names of nested types in order. -/
structure Namer where
  root : Text
  suffix : Text := "Nested"
  /-- The index of the name that is considered next. -/
  cursor : Nat := 0
  /-- The names handed out, in order. -/
  issued : List Text := []

namespace Namer

/-- The name of an index: without a number for the first one, and numbered from zero after it. -/
def candidate (n : Namer) : Nat → Text
  | 0 => n.root ++ n.suffix
  | k + 1 => n.root ++ n.suffix ++ Text.decimal k

/-- The index of the next name. The names of different indices differ, so at most one is the name
of the root. -/
def nextIndex (n : Namer) : Nat :=
  if n.candidate n.cursor = n.root then n.cursor + 1 else n.cursor

/-- The next name, and the namer after it was handed out. -/
def next (n : Namer) : Text × Namer :=
  let name := n.candidate n.nextIndex
  (name, { n with cursor := n.nextIndex + 1, issued := n.issued ++ [name] })

/-- The names of some calls in a row, and the namer after them. -/
def take : Nat → Namer → List Text × Namer
  | 0, n => ([], n)
  | count + 1, n =>
    let (name, n) := n.next
    let (names, n) := take count n
    (name :: names, n)

/-- A name that is not that of the root is handed out. -/
theorem next_of_ne {n : Namer} (h : n.candidate n.cursor ≠ n.root) :
    n.next = (n.candidate n.cursor,
      { n with cursor := n.cursor + 1, issued := n.issued ++ [n.candidate n.cursor] }) := by
  rw [next, nextIndex, if_neg h]

theorem next_issued (n : Namer) : n.next.2.issued = n.issued ++ [n.next.1] := rfl

/-- **What was handed out is what the calls gave.** -/
theorem take_issued (count : Nat) (n : Namer) :
    (take count n).2.issued = n.issued ++ (take count n).1 := by
  induction count generalizing n with
  | zero => simp [take]
  | succ count ih => simp only [take, ih, next_issued, List.append_assoc, List.singleton_append]

theorem length_take (count : Nat) (n : Namer) : (take count n).1.length = count := by
  induction count generalizing n with
  | zero => rfl
  | succ count ih => simp only [take, List.length_cons, ih]

end Namer

end TypeSketch
