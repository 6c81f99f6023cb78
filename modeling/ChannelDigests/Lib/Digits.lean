import Mathlib.Order.Lattice
import Mathlib.Data.List.Lex
import Mathlib.Data.Nat.Init
import Mathlib.Tactic.Common

/-!
# Texts of a fixed width

Numbers written with a fixed number of digits, the first digit first, are compared as lists just as
they are compared as numbers; separators at fixed places do not matter.

* `append_lt_append_iff`   lists of one length come first in the comparison;
* `capacity`, `digitsOf`   the digits of a number, and how many numbers there are;
* `digits_lt_iff`        digits are compared as the numbers are;
* `separated`, `separated_lt_iff`   a separator after each part.
-/

namespace ChannelDigests.Lib

section
variable {α β : Type} [LinearOrder α] [LinearOrder β]

theorem append_lt_append_iff {a a' b b' : List α} (h : a.length = a'.length) :
    a ++ b < a' ++ b' ↔ a < a' ∨ a = a' ∧ b < b' := by
  induction a generalizing a' with
  | nil =>
    obtain rfl : a' = [] := List.length_eq_zero_iff.mp h.symm
    simp
  | cons x a ih =>
    cases a' with
    | nil => cases h
    | cons x' a' =>
      rw [List.cons_append, List.cons_append, List.cons_lt_cons_iff, List.cons_lt_cons_iff,
        ih (Nat.succ.inj h), List.cons.injEq]
      tauto

/-- a map that keeps the order keeps the order of lists. -/
theorem map_lt_map_iff {f : α → β} {a a' : List α}
    (h : ∀ x ∈ a, ∀ y ∈ a', f x < f y ↔ x < y) (he : ∀ x ∈ a, ∀ y ∈ a', f x = f y ↔ x = y) :
    a.map f < a'.map f ↔ a < a' := by
  induction a generalizing a' with
  | nil =>
    cases a' with
    | nil => simp
    | cons y a' => simp
  | cons x a ih =>
    cases a' with
    | nil => simp
    | cons y a' =>
      rw [List.map_cons, List.map_cons, List.cons_lt_cons_iff, List.cons_lt_cons_iff,
        h x List.mem_cons_self y List.mem_cons_self, he x List.mem_cons_self y List.mem_cons_self,
        ih (fun u hu v hv => h u (List.mem_cons_of_mem _ hu) v (List.mem_cons_of_mem _ hv))
          fun u hu v hv => he u (List.mem_cons_of_mem _ hu) v (List.mem_cons_of_mem _ hv)]

/-- the parts of these lengths, with a separator after each; the rest follows. -/
def separated (c : α) : List Nat → List α → List α
  | [], l => l
  | n :: ns, l => l.take n ++ c :: separated c ns (l.drop n)

theorem separated_lt_iff {c : α} {ns : List Nat} {l l' : List α} (h : l.length = l'.length) :
    separated c ns l < separated c ns l' ↔ l < l' := by
  induction ns generalizing l l' with
  | nil => exact Iff.rfl
  | cons n ns ih =>
    have htake : (l.take n).length = (l'.take n).length := by
      rw [List.length_take, List.length_take, h]
    have hdrop : (l.drop n).length = (l'.drop n).length := by
      rw [List.length_drop, List.length_drop, h]
    rw [separated, separated, append_lt_append_iff htake, List.cons_lt_cons_iff, ih hdrop]
    conv_rhs =>
      rw [← List.take_append_drop n l, ← List.take_append_drop n l', append_lt_append_iff htake]
    simp

end

/-- how many numbers have `n` digits in base `b`. -/
def capacity (b : Nat) : Nat → Nat
  | 0 => 1
  | n + 1 => capacity b n * b

/-- `n` digits of a number in base `b`, the first one first. -/
def digitsOf (b : Nat) : Nat → Nat → List Nat
  | 0, _ => []
  | n + 1, x => x / capacity b n :: digitsOf b n (x % capacity b n)

theorem capacity_pos {b : Nat} (hb : 0 < b) (n : Nat) : 0 < capacity b n := by
  induction n with
  | zero => exact Nat.one_pos
  | succ n ih => exact Nat.mul_pos ih hb

section
variable {b n x y : Nat}

theorem length_digits : (digitsOf b n x).length = n := by
  induction n generalizing x with
  | zero => rfl
  | succ n ih => rw [digitsOf, List.length_cons, ih]

theorem digits_lt_base (hb : 0 < b) (hx : x < capacity b n) : ∀ d ∈ digitsOf b n x, d < b := by
  induction n generalizing x with
  | zero =>
    intro d hd
    cases hd
  | succ n ih =>
    intro d hd
    have hpow : 0 < capacity b n := capacity_pos hb n
    rcases List.mem_cons.mp hd with rfl | hd
    · rw [Nat.div_lt_iff_lt_mul hpow, Nat.mul_comm]
      exact hx
    · exact ih (Nat.mod_lt _ hpow) d hd

/-- **Digits are compared as the numbers are.** -/
theorem digits_lt_iff (hb : 0 < b) (hx : x < capacity b n) (hy : y < capacity b n) :
    digitsOf b n x < digitsOf b n y ↔ x < y := by
  induction n generalizing x y with
  | zero =>
    have hx0 : x = 0 := Nat.lt_one_iff.mp hx
    have hy0 : y = 0 := Nat.lt_one_iff.mp hy
    rw [hx0, hy0]
    simp
  | succ n ih =>
    have hpow : 0 < capacity b n := capacity_pos hb n
    rw [digitsOf, digitsOf, List.cons_lt_cons_iff, ih (Nat.mod_lt _ hpow) (Nat.mod_lt _ hpow)]
    have hdx := Nat.div_add_mod x (capacity b n)
    have hdy := Nat.div_add_mod y (capacity b n)
    have hmx := Nat.mod_lt x hpow
    constructor
    · intro h
      rcases h with h | ⟨h, hm⟩
      · have hstep : capacity b n * (x / capacity b n + 1) ≤ capacity b n * (y / capacity b n) := Nat.mul_le_mul_left _ h
        calc x = capacity b n * (x / capacity b n) + x % capacity b n := hdx.symm
          _ < capacity b n * (x / capacity b n) + capacity b n := Nat.add_lt_add_left hmx _
          _ ≤ capacity b n * (y / capacity b n) := by rwa [Nat.mul_add, Nat.mul_one] at hstep
          _ ≤ y := Nat.mul_div_le y _
      · rw [← hdx, ← hdy, h]
        exact Nat.add_lt_add_left hm _
    · intro h
      rcases Nat.lt_or_ge (x / capacity b n) (y / capacity b n) with hlt | hge
      · exact .inl hlt
      · have heq : x / capacity b n = y / capacity b n :=
          Nat.le_antisymm (Nat.div_le_div_right h.le) hge
        refine .inr ⟨heq, ?_⟩
        rw [← hdx, ← hdy, heq] at h
        exact Nat.lt_of_add_lt_add_left h

end

end ChannelDigests.Lib
