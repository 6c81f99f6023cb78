import ChannelDigests.Lib.Table
import Mathlib.Data.List.Sort

/-!
# Rows in the order of a key

Rows with unique keys of a linear order, sorted by the key.

* `sorted key rows`        the rows in ascending order;
* `sorted_congr`           the order of the rows before does not matter;
* `sorted_rank`            a row stands where as many rows are before it as have a smaller key;
* `FirstOf key n rows chosen`   `chosen` are the `n` rows with the smallest keys, in order;
* `firstOf_take`, `FirstOf.unique`   there is exactly one such list;
* `FirstOf.map`            the first rows of a mapped table are the mapped first rows.
-/

namespace ChannelDigests.Lib

variable {ρ κ : Type} [LinearOrder κ] {key : ρ → κ} {rows chosen : List ρ}

/-- the rows in the order of their keys. -/
def sorted (key : ρ → κ) (rows : List ρ) : List ρ := rows.insertionSort fun a b => key a ≤ key b

theorem sorted_perm (key : ρ → κ) (rows : List ρ) : List.Perm (sorted key rows) rows :=
  List.perm_insertionSort _ _

/-- unique keys rise. -/
theorem sorted_lt (h : KeyUnique key rows) :
    (sorted key rows).Pairwise fun a b => key a < key b := by
  have total : ∀ a b : ρ, key a ≤ key b ∨ key b ≤ key a := fun a b => le_total _ _
  have trans : ∀ a b c : ρ, key a ≤ key b → key b ≤ key c → key a ≤ key c :=
    fun a b c hab hbc => le_trans hab hbc
  have : Std.Total fun a b : ρ => key a ≤ key b := ⟨total⟩
  have : IsTrans ρ fun a b => key a ≤ key b := ⟨trans⟩
  have hle : (sorted key rows).Pairwise fun a b => key a ≤ key b := List.pairwise_insertionSort _ _
  have hne : (sorted key rows).Pairwise fun a b => key a ≠ key b := by
    have hnodup : ((sorted key rows).map key).Nodup :=
      ((sorted_perm key rows).map key).nodup_iff.mpr h
    exact List.pairwise_map.mp hnodup
  exact (hle.and hne).imp fun hab => lt_of_le_of_ne hab.1 hab.2

/-- **The order of the rows before does not matter.** -/
theorem sorted_congr {other : List ρ} (h : KeyUnique key rows) (hp : List.Perm rows other) :
    sorted key rows = sorted key other := by
  have h' : KeyUnique key other := (hp.map key).nodup_iff.mp h
  have hperm : List.Perm (sorted key rows) (sorted key other) :=
    (sorted_perm key rows).trans (hp.trans (sorted_perm key other).symm)
  exact hperm.eq_of_pairwise (fun a b _ _ hab hba => absurd hab hba.not_gt) (sorted_lt h)
    (sorted_lt h')

/-- in a rising list a row stands behind the rows with a smaller key. -/
theorem rising_rank (h : rows.Pairwise fun a b => key a < key b) {r : ρ} (hr : r ∈ rows) :
    rows[rows.countP fun o => key o < key r]? = some r := by
  induction rows with
  | nil => cases hr
  | cons a rows ih =>
    obtain ⟨ha, hrows⟩ := List.pairwise_cons.mp h
    rw [List.countP_cons]
    rcases List.mem_cons.mp hr with rfl | hr
    · have hnone : rows.countP (fun o => key o < key r) = 0 :=
        List.countP_eq_zero.mpr fun o ho => by
          rw [decide_eq_true_eq]
          exact (ha o ho).not_gt
      rw [hnone, if_neg (by simp)]
      rfl
    · rw [if_pos (decide_eq_true (ha r hr))]
      exact ih hrows hr

/-- **A row stands where as many rows are before it as have a smaller key.** -/
theorem sorted_rank (h : KeyUnique key rows) {r : ρ} (hr : r ∈ rows) :
    (sorted key rows)[rows.countP fun o => key o < key r]? = some r := by
  rw [← (sorted_perm key rows).countP_eq]
  exact rising_rank (sorted_lt h) ((sorted_perm key rows).mem_iff.mpr hr)

/-- `chosen` are the `n` rows with the smallest keys, or all of them, in the order of the keys. -/
structure FirstOf (key : ρ → κ) (n : Nat) (rows chosen : List ρ) : Prop where
  subset : ∀ r ∈ chosen, r ∈ rows
  rising : chosen.Pairwise fun a b => key a < key b
  length : chosen.length = min n rows.length
  first : ∀ r ∈ chosen, ∀ o ∈ rows, o ∉ chosen → key r < key o

/-- **The first rows of the sorted list are such a list.** -/
theorem firstOf_take (h : KeyUnique key rows) (n : Nat) :
    FirstOf key n rows ((sorted key rows).take n) where
  subset r hr := (sorted_perm key rows).mem_iff.mp (List.mem_of_mem_take hr)
  rising := (sorted_lt h).sublist (List.take_sublist _ _)
  length := by rw [List.length_take, (sorted_perm key rows).length_eq]
  first r hr o ho hno := by
    have hall := sorted_lt h
    rw [← List.take_append_drop n (sorted key rows)] at hall
    have hmem : o ∈ (sorted key rows).take n ++ (sorted key rows).drop n := by
      rw [List.take_append_drop]
      exact (sorted_perm key rows).mem_iff.mpr ho
    exact (List.pairwise_append.mp hall).2.2 r hr o ((List.mem_append.mp hmem).resolve_left hno)

/-- the first rows of a mapped table. -/
theorem FirstOf.map {σ : Type} {n : Nat} {f : σ → ρ} {rows chosen : List σ}
    (h : FirstOf (key ∘ f) n rows chosen) : FirstOf key n (rows.map f) (chosen.map f) where
  subset r hr := by
    obtain ⟨x, hx, rfl⟩ := List.mem_map.mp hr
    exact List.mem_map_of_mem (h.subset x hx)
  rising := List.pairwise_map.mpr h.rising
  length := by rw [List.length_map, List.length_map, h.length]
  first r hr o ho hno := by
    obtain ⟨x, hx, rfl⟩ := List.mem_map.mp hr
    obtain ⟨y, hy, rfl⟩ := List.mem_map.mp ho
    exact h.first x hx y hy fun hmem => hno (List.mem_map_of_mem hmem)

/-- **There is only one such list.** -/
theorem FirstOf.unique {other : List ρ} {n : Nat} (h : FirstOf key n rows chosen)
    (h' : FirstOf key n rows other) : chosen = other := by
  have hnodup : chosen.Nodup := h.rising.imp fun hab he => absurd (he ▸ hab) (lt_irrefl _)
  have hnodup' : other.Nodup := h'.rising.imp fun hab he => absurd (he ▸ hab) (lt_irrefl _)
  -- a row of one list that is not in the other would be before all rows of the other.
  have sub : ∀ {x y : List ρ}, FirstOf key n rows x → FirstOf key n rows y → x.Nodup → y.Nodup →
      x ⊆ y := by
    intro x y hx hy hnx hny r hr
    by_contra hno
    have hsub : y ⊆ x := by
      intro o ho
      by_contra hox
      exact absurd (hx.first r hr o (hy.subset o ho) hox)
        (hy.first o ho r (hx.subset r hr) hno).not_gt
    have hlen : x.length ≤ y.length := (hx.length.trans hy.length.symm).le
    have hperm := (List.subperm_of_subset hny hsub).perm_of_length_le hlen
    exact hno (hperm.mem_iff.mpr hr)
  have hperm : List.Perm chosen other :=
    (List.perm_ext_iff_of_nodup hnodup hnodup').mpr fun r =>
      ⟨fun hr => sub h h' hnodup hnodup' hr, fun hr => sub h' h hnodup' hnodup hr⟩
  exact hperm.eq_of_pairwise (fun a b _ _ hab hba => absurd hab hba.not_gt) h.rising h'.rising

end ChannelDigests.Lib
