import Mathlib.Data.List.Nodup
import TypeSketch.Namer

/-!
# The names of nested types

* `Text.decimal_injective`: different numbers have different numerals.
* `Namer.candidate_injective`: no name is in the sequence twice.
* `nestedName`: the sequence of names below a root. The root's own name is not among them.
* `Namer.next_after`: **the name handed out next is the next one of the sequence.**
-/

namespace TypeSketch

namespace Text

theorem digitVal_ofNat {d : Nat} (h : d < 10) : (CodePoint.ofNat (0x30 + d)).digitVal = d := by
  rw [CodePoint.ofNat, dif_pos (by omega)]
  exact Nat.add_sub_cancel_left 0x30 d

theorem isDigit_ofNat {d : Nat} (h : d < 10) : (CodePoint.ofNat (0x30 + d)).isDigit = true := by
  rw [CodePoint.ofNat, dif_pos (by omega), CodePoint.isDigit, Bool.and_eq_true, decide_eq_true_eq,
    decide_eq_true_eq]
  exact ⟨Nat.le_add_right _ _, by show 0x30 + d ≤ 0x39; omega⟩

/-- Digits put before others count as many tens as the others have places. -/
theorem natOfDigits_decimalOnto (n : Nat) (acc : Text) :
    natOfDigits (decimalOnto n acc) = acc.foldl (fun n d => n * 10 + d.digitVal) n := by
  fun_induction decimalOnto n acc with
  | case1 n acc h => rw [natOfDigits, List.foldl_cons, digitVal_ofNat h, Nat.zero_mul, Nat.zero_add]
  | case2 n acc h ih =>
    rw [ih, List.foldl_cons, digitVal_ofNat (Nat.mod_lt _ (by decide)), Nat.div_add_mod']

/-- A numeral denotes its number. -/
theorem natOfDigits_decimal (n : Nat) : natOfDigits (decimal n) = n :=
  natOfDigits_decimalOnto n []

theorem decimal_injective : Function.Injective decimal := fun m n h => by
  rw [← natOfDigits_decimal m, h, natOfDigits_decimal]

theorem isDigit_of_mem_decimalOnto {n : Nat} {acc : Text} (h : ∀ c ∈ acc, c.isDigit = true) :
    ∀ c ∈ decimalOnto n acc, c.isDigit = true := by
  fun_induction decimalOnto n acc with
  | case1 n acc hn => exact List.forall_mem_cons.2 ⟨isDigit_ofNat hn, h⟩
  | case2 n acc hn ih =>
    exact ih (List.forall_mem_cons.2 ⟨isDigit_ofNat (Nat.mod_lt _ (by decide)), h⟩)

/-- A numeral consists of digits. -/
theorem isDigit_of_mem_decimal {n : Nat} : ∀ c ∈ decimal n, c.isDigit = true :=
  isDigit_of_mem_decimalOnto (by simp)

theorem decimalOnto_ne_nil (n : Nat) (acc : Text) : decimalOnto n acc ≠ [] := by
  fun_induction decimalOnto n acc with
  | case1 => exact List.cons_ne_nil _ _
  | case2 _ _ _ ih => exact ih

theorem decimal_ne_nil (n : Nat) : decimal n ≠ [] := decimalOnto_ne_nil n []

end Text

/-- No name is in the sequence twice. -/
theorem Namer.candidate_injective (n : Namer) : Function.Injective n.candidate := by
  intro i j h
  cases i with
  | zero =>
    cases j with
    | zero => rfl
    | succ j => exact absurd (List.self_eq_append_right.1 h) (Text.decimal_ne_nil j)
  | succ i =>
    cases j with
    | zero => exact absurd (List.self_eq_append_right.1 h.symm) (Text.decimal_ne_nil i)
    | succ j => exact congrArg (· + 1) (Text.decimal_injective (List.append_cancel_left h))

/-- The names of the types below a root, in the order in which they are handed out. -/
def nestedName (root : Text) : Nat → Text := Namer.candidate { root }

/-- The first names of the types below a root. -/
def nestedNames (root : Text) (count : Nat) : List Text := (List.range count).map (nestedName root)

variable {root : Text}

theorem nestedName_injective (root : Text) : Function.Injective (nestedName root) :=
  Namer.candidate_injective _

/-- The name of a nested type begins with the name of the root and goes on. -/
theorem nestedName_eq (root : Text) (i : Nat) :
    ∃ tail, nestedName root i = root ++ ("Nested" : Text) ++ tail ∧
      ∀ c ∈ tail, c.isDigit = true := by
  cases i with
  | zero => exact ⟨[], (List.append_nil _).symm, by simp⟩
  | succ i => exact ⟨Text.decimal i, rfl, Text.isDigit_of_mem_decimal⟩

theorem nestedName_ne_root (root : Text) (i : Nat) : nestedName root i ≠ root := by
  obtain ⟨tail, htail, -⟩ := nestedName_eq root i
  rw [htail, List.append_assoc, ne_eq, List.append_right_eq_self, List.append_eq_nil_iff]
  exact fun h => absurd h.1 (by decide)

theorem length_nestedNames (root : Text) (count : Nat) :
    (nestedNames root count).length = count := by
  simp [nestedNames]

theorem nodup_nestedNames (root : Text) (count : Nat) : (nestedNames root count).Nodup :=
  List.nodup_range.map (nestedName_injective root)

theorem nestedNames_succ (root : Text) (count : Nat) :
    nestedNames root (count + 1) = nestedNames root count ++ [nestedName root count] := by
  rw [nestedNames, List.range_succ, List.map_append]
  rfl

theorem root_not_mem_nestedNames (root : Text) (count : Nat) : root ∉ nestedNames root count := by
  intro h
  obtain ⟨i, -, hi⟩ := List.mem_map.1 h
  exact nestedName_ne_root root i hi

namespace Namer

/-- The namer of a root once it has handed out some names. -/
def after (root : Text) (count : Nat) : Namer :=
  { root, cursor := count, issued := nestedNames root count }

/-- **The name handed out next is the next one of the sequence.** -/
theorem next_after (root : Text) (i : Nat) :
    (after root i).next = (nestedName root i, after root (i + 1)) := by
  have hcandidate : (after root i).candidate = nestedName root := by
    funext k
    cases k <;> rfl
  have hne : (after root i).candidate i ≠ root := by
    rw [hcandidate]
    exact nestedName_ne_root root i
  rw [next_of_ne hne, hcandidate, after, after, nestedNames_succ]

end Namer

end TypeSketch
