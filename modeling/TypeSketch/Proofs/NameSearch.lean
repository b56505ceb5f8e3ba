import TypeSketch.Proofs.Naming

/-!
# The search for names

The names of the sequence are considered one after another. One that is taken, because the root is
called so or because it was handed out before, is passed over, and the first that is not taken is
handed out. Nothing in this bounds the search: it comes to an end because the names of different
indices differ, and then only the name of the root can be in its way.

* `Finds`: a search that comes to an end, with the name it hands out and the namer it leaves.
  `Calls`: several searches in a row.
* `namesBefore`, `past`: the names in front of an index but for that of the root, and the namer that
  has handed out just these.
* `considered_mem_taken_iff`: **a namer like that passes over nothing but the name of the root.**
* `exists_finds_next`: every search from there comes to an end, with the name that the namer gives.
* `calls_fresh`: **the names of all calls on a new namer.**
-/

namespace TypeSketch.Namer

variable {n : Namer} {i j count : Nat}

/-! ## Searches -/

/-- The names that are not handed out: that of the root, and those that were handed out before. -/
def taken (n : Namer) : List Text := n.root :: n.issued

/-- The name that is considered next. -/
def considered (n : Namer) : Text := n.candidate n.cursor

/-- The namer after it has passed over the name considered. -/
def passOver (n : Namer) : Namer := { n with cursor := n.cursor + 1 }

/-- The namer after it has handed out the name considered. -/
def handOut (n : Namer) : Namer :=
  { n with cursor := n.cursor + 1, issued := n.issued ++ [n.considered] }

/-- **A search that comes to an end.** Names that are taken are passed over, and the first that is
not taken is handed out. -/
inductive Finds : Namer → Text → Namer → Prop
  | free {n : Namer} (h : n.considered ∉ n.taken) : Finds n n.considered n.handOut
  | passed {n left : Namer} {name : Text} (h : n.considered ∈ n.taken)
      (rest : Finds n.passOver name left) : Finds n name left

/-- Some calls in a row. Each is a search that comes to an end, and the next one goes on from
there. -/
inductive Calls : Nat → Namer → List Text → Namer → Prop
  | none (n : Namer) : Calls 0 n [] n
  | call {count : Nat} {n between left : Namer} {name : Text} {names : List Text}
      (first : Finds n name between) (rest : Calls count between names left) :
      Calls (count + 1) n (name :: names) left

/-- A search ends in one way only. -/
theorem Finds.unique {name name' : Text} {left left' : Namer} (h : Finds n name left)
    (h' : Finds n name' left') : name' = name ∧ left' = left := by
  induction h with
  | free hfree =>
    cases h' with
    | free => exact ⟨rfl, rfl⟩
    | passed htaken => exact absurd htaken hfree
  | passed htaken _ ih =>
    cases h' with
    | free hfree => exact absurd htaken hfree
    | passed _ rest => exact ih rest

theorem Calls.unique {names names' : List Text} {left left' : Namer}
    (h : Calls count n names left) (h' : Calls count n names' left') :
    names' = names ∧ left' = left := by
  induction h generalizing names' with
  | none => cases h'; exact ⟨rfl, rfl⟩
  | call first _ ih =>
    cases h' with
    | call first' rest' =>
      obtain ⟨rfl, rfl⟩ := first.unique first'
      obtain ⟨rfl, rfl⟩ := ih rest'
      exact ⟨rfl, rfl⟩

/-! ## Names in front of an index -/

/-- A numbered name is longer than that of the root. -/
theorem candidate_succ_ne_root (n : Namer) (i : Nat) : n.candidate (i + 1) ≠ n.root := by
  intro h
  have hlength := congrArg List.length h
  have hpos := List.length_pos_of_ne_nil (Text.decimal_ne_nil i)
  simp only [candidate, List.length_append] at hlength
  omega

/-- The names in front of an index, that of the root left out. -/
def namesBefore (n : Namer) (i : Nat) : List Text :=
  ((List.range i).map n.candidate).filter (· ≠ n.root)

theorem namesBefore_succ (n : Namer) (i : Nat) : n.namesBefore (i + 1) =
    n.namesBefore i ++ if n.candidate i = n.root then [] else [n.candidate i] := by
  unfold namesBefore
  rw [List.range_succ, List.map_append, List.filter_append]
  by_cases h : n.candidate i = n.root <;> simp [h]

theorem namesBefore_succ_eq_cons (n : Namer) (count : Nat) : n.namesBefore (count + 1) =
    ((n.root ++ n.suffix) :: (List.range count).map fun k =>
      n.root ++ n.suffix ++ Text.decimal k).filter (· ≠ n.root) := by
  unfold namesBefore
  rw [List.range_succ_eq_map, List.map_cons, List.map_map]
  rfl

theorem namesBefore_mono (h : i ≤ j) : n.namesBefore i <+: n.namesBefore j := by
  obtain ⟨k, rfl⟩ := Nat.exists_eq_add_of_le h
  unfold namesBefore
  rw [List.range_add, List.map_append, List.filter_append]
  exact List.prefix_append _ _

theorem nodup_namesBefore (n : Namer) (i : Nat) : (n.namesBefore i).Nodup :=
  (List.nodup_range.map n.candidate_injective).filter _

theorem root_not_mem_namesBefore (n : Namer) (i : Nat) : n.root ∉ n.namesBefore i := by
  intro h
  simpa using (List.mem_filter.1 h).2

/-- A name is not among those in front of it. -/
theorem candidate_not_mem_namesBefore (n : Namer) (i : Nat) :
    n.candidate i ∉ n.namesBefore i := by
  intro h
  obtain ⟨k, hk, he⟩ := List.mem_map.1 (List.mem_filter.1 h).1
  obtain rfl := n.candidate_injective he
  exact absurd (List.mem_range.1 hk) (Nat.lt_irrefl _)

/-- No more than one name is left out. -/
theorem le_length_namesBefore (n : Namer) (i : Nat) : i ≤ (n.namesBefore i).length + 1 := by
  induction i with
  | zero => exact Nat.zero_le _
  | succ i ih =>
    cases i with
    | zero => exact Nat.le_add_left _ _
    | succ i =>
      -- from the second name on none is that of the root
      rw [namesBefore_succ, if_neg (n.candidate_succ_ne_root i), List.length_append,
        List.length_singleton]
      omega

/-! ## Searching from an index -/

/-- The namer that has handed out all names in front of an index but that of the root. -/
def past (n : Namer) (i : Nat) : Namer := { n with cursor := i, issued := n.namesBefore i }

theorem considered_past (n : Namer) (i : Nat) : (n.past i).considered = n.candidate i := rfl

/-- **Nothing but the name of the root is passed over.** All names handed out before belong to
smaller indices. -/
theorem considered_mem_taken_iff (n : Namer) (i : Nat) :
    (n.past i).considered ∈ (n.past i).taken ↔ n.candidate i = n.root := by
  constructor
  · intro h
    rcases List.mem_cons.1 h with hroot | hissued
    · exact hroot
    · exact absurd hissued (n.candidate_not_mem_namesBefore i)
  · intro h
    exact List.mem_cons.2 (.inl h)

theorem passOver_past (h : n.candidate i = n.root) : (n.past i).passOver = n.past (i + 1) := by
  unfold passOver past
  rw [namesBefore_succ, if_pos h, List.append_nil]

theorem handOut_past (h : n.candidate i ≠ n.root) : (n.past i).handOut = n.past (i + 1) := by
  unfold handOut
  rw [considered_past]
  unfold past
  rw [namesBefore_succ, if_neg h]

theorem finds_past (h : n.candidate i ≠ n.root) :
    Finds (n.past i) (n.candidate i) (n.past (i + 1)) := by
  have hfree := Finds.free (mt (considered_mem_taken_iff n i).1 h)
  rwa [handOut_past h, considered_past] at hfree

theorem next_past (h : n.candidate i ≠ n.root) :
    (n.past i).next = (n.candidate i, n.past (i + 1)) := by
  rw [← handOut_past h]
  exact next_of_ne h

/-- Passing over the name of the root makes no difference to the name that is given. -/
theorem next_passOver (h : n.considered = n.root) : n.passOver.next = n.next := by
  have hne : n.passOver.candidate (n.cursor + 1) ≠ n.root := n.passOver.candidate_succ_ne_root _
  have hindex : n.passOver.nextIndex = n.nextIndex := by
    have hhere : n.nextIndex = n.cursor + 1 := if_pos h
    rw [hhere]
    exact if_neg hne
  rw [next, next, hindex]
  rfl

/-- **Every search comes to an end**, with the name and the namer that are given. -/
theorem exists_finds_next (n : Namer) (i : Nat) :
    ∃ name j, (n.past i).next = (name, n.past j) ∧ Finds (n.past i) name (n.past j) := by
  by_cases h : n.candidate i = n.root
  · -- the search goes on behind the name of the root, and the next name is free
    have hne := n.candidate_succ_ne_root i
    have htaken := (considered_mem_taken_iff n i).2 h
    refine ⟨n.candidate (i + 1), i + 2, ?_, .passed htaken ?_⟩
    · rw [← next_passOver (n := n.past i) h, passOver_past h, next_past hne]
    · rw [passOver_past h]
      exact finds_past hne
  · exact ⟨n.candidate i, i + 1, next_past h, finds_past h⟩

/-- Calls in a row give what their searches hand out. -/
theorem exists_calls_take (n : Namer) (count i : Nat) :
    ∃ names j, take count (n.past i) = (names, n.past j) ∧
      Calls count (n.past i) names (n.past j) := by
  induction count generalizing i with
  | zero => exact ⟨[], i, rfl, .none _⟩
  | succ count ih =>
    obtain ⟨name, k, hnext, hfinds⟩ := n.exists_finds_next i
    obtain ⟨names, j, htake, hcalls⟩ := ih k
    refine ⟨name :: names, j, ?_, .call hfinds hcalls⟩
    rw [take, hnext]
    simp only [htake]

/-- **The names of all calls on a new namer.** Every call comes to an end, and there is one way only
in which it does. The names are the first ones of the sequence once the name of the root is left
out, as many as there are calls. They differ from one another and from the root, and are those that
the namer lists as handed out. No more than one name was passed over in all calls together. -/
theorem calls_fresh (root suffix : Text) (count : Nat) :
    ∃ names last, take count { root, suffix } = (names, last) ∧
      (∀ ts m, Calls count { root, suffix } ts m ↔ ts = names ∧ m = last) ∧
      names = (((root ++ suffix) :: (List.range count).map fun k =>
        root ++ suffix ++ Text.decimal k).filter (· ≠ root)).take count ∧
      names.length = count ∧ names.Nodup ∧ root ∉ names ∧ last.issued = names ∧
      last.cursor ≤ count + 1 := by
  let n : Namer := { root, suffix }
  obtain ⟨names, j, htake, hcalls⟩ := n.exists_calls_take count 0
  -- what was handed out are the names in front of the cursor, so their number bounds the cursor
  have hissued : n.namesBefore j = names := by
    have h := take_issued count (n.past 0)
    rw [htake] at h
    exact h
  have hlength : names.length = count := by
    have h := length_take count (n.past 0)
    rwa [htake] at h
  have hcursor : j ≤ count + 1 := by
    have h := n.le_length_namesBefore j
    rwa [hissued, hlength] at h
  refine ⟨names, n.past j, htake, ?_, ?_, hlength, ?_, ?_, hissued, hcursor⟩
  · intro ts m
    refine ⟨hcalls.unique, ?_⟩
    rintro ⟨rfl, rfl⟩
    exact hcalls
  · have hprefix := namesBefore_mono (n := n) hcursor
    rw [hissued, List.prefix_iff_eq_take, hlength, namesBefore_succ_eq_cons] at hprefix
    exact hprefix
  · rw [← hissued]
    exact n.nodup_namesBefore j
  · rw [← hissued]
    exact n.root_not_mem_namesBefore j

example : (take 2 { root := "Item", suffix := "" }).1 = (["Item0", "Item1"] : List Text) := by
  decide +kernel

end TypeSketch.Namer
