import TypeSketch.Fault

/-!
# Feeds of samples

Reading delivers samples one by one, until there are no more or something goes wrong.

* `Feed`: the samples that are delivered, and what goes wrong behind them.
* `Feed.append`: two feeds in a row.
* `Feed.collect`: the first samples, or all of them. What lies behind the last one that is asked for
  is not looked at.
* `Feed.collect_append_of_le`: so it does not matter what follows enough samples.
-/

namespace TypeSketch

/-- The samples that are delivered, and the fault that ends them, if there is one. -/
structure Feed where
  samples : List Value := []
  fault : Option Fault := none

namespace Feed

/-- A feed that fails at once. -/
def failing (f : Fault) : Feed := { fault := some f }

/-- One feed and, unless it fails, another one behind it. -/
def append (a b : Feed) : Feed :=
  match a.fault with
  | some _ => a
  | none => { samples := a.samples ++ b.samples, fault := b.fault }

instance : Append Feed := ⟨append⟩

/-- Feeds in a row. -/
def concat (feeds : List Feed) : Feed := feeds.foldr append {}

/-- All samples, unless the feed fails. -/
def all (f : Feed) : Except Fault (List Value) :=
  match f.fault with
  | some fault => .error fault
  | none => .ok f.samples

/-- The first samples up to a number, or all of them. -/
def collect (f : Feed) (count : Option Nat) : Except Fault (List Value) :=
  match count with
  | none => f.all
  | some n => if n ≤ f.samples.length then .ok (f.samples.take n) else f.all

/-- **What follows enough samples does not matter.** -/
theorem collect_append_of_le {a b : Feed} {n : Nat} (h : n ≤ a.samples.length) :
    (a ++ b).collect (some n) = .ok (a.samples.take n) := by
  show (append a b).collect (some n) = _
  unfold append
  split
  · rw [collect, if_pos h]
  · have h' : n ≤ (a.samples ++ b.samples).length := by rw [List.length_append]; omega
    rw [collect, if_pos h', List.take_append_of_le_length h]

end Feed

end TypeSketch
