import Mathlib.Order.Interval.Set.Basic
import Mathlib.Order.Interval.Set.Disjoint
import Mathlib.Order.CompletePartialOrder

/-!
# Tiles

Half-open intervals `[s, e)` of a linear order that cover a longer one without an overlap.

* `Tiles windows a b`   the windows are disjoint and cover `[a, b)`, and nothing else;
* `Tiles.nil`, `Tiles.single`, `Tiles.append`   how they are put together.
-/

namespace ChannelDigests.Lib

variable {T : Type} [LinearOrder T] {a b c : T} {u v : List (T × T)}

/-- the windows are disjoint, and an instant is in one of them exactly when it is in `[a, b)`. -/
structure Tiles (windows : List (T × T)) (a b : T) : Prop where
  disjoint : windows.Pairwise fun u v => Disjoint (Set.Ico u.1 u.2) (Set.Ico v.1 v.2)
  covers : ∀ t, (∃ w ∈ windows, t ∈ Set.Ico w.1 w.2) ↔ t ∈ Set.Ico a b

namespace Tiles

theorem nil (h : b ≤ a) : Tiles [] a b where
  disjoint := .nil
  covers t := by
    rw [Set.Ico_eq_empty_of_le h]
    simp

theorem single (a b : T) : Tiles [(a, b)] a b where
  disjoint := List.pairwise_singleton ..
  covers t := by simp

theorem append (hac : a ≤ c) (hcb : c ≤ b) (hu : Tiles u a c) (hv : Tiles v c b) :
    Tiles (u ++ v) a b where
  disjoint := by
    refine List.pairwise_append.mpr ⟨hu.disjoint, hv.disjoint, fun x hx y hy => ?_⟩
    refine Set.disjoint_left.mpr fun t htx hty => ?_
    have h1 := (hu.covers t).mp ⟨x, hx, htx⟩
    have h2 := (hv.covers t).mp ⟨y, hy, hty⟩
    exact absurd h1.2 (not_lt.mpr h2.1)
  covers t := by
    rw [← Set.Ico_union_Ico_eq_Ico hac hcb, Set.mem_union, ← hu.covers, ← hv.covers]
    constructor
    · intro ⟨w, hw, ht⟩
      exact (List.mem_append.mp hw).imp (fun h => ⟨w, h, ht⟩) fun h => ⟨w, h, ht⟩
    · intro h
      rcases h with ⟨w, hw, ht⟩ | ⟨w, hw, ht⟩
      · exact ⟨w, List.mem_append_left _ hw, ht⟩
      · exact ⟨w, List.mem_append_right _ hw, ht⟩

/-- the end of the last tile does not matter when nothing is covered. -/
theorem to_end (h : Tiles u (max a c) (max b c)) : Tiles u (max a c) b where
  disjoint := h.disjoint
  covers t := by
    rw [h.covers, Set.mem_Ico, Set.mem_Ico, lt_max_iff]
    refine and_congr_right fun ht => ⟨fun h => h.resolve_right ?_, .inl⟩
    exact not_lt.mpr (le_trans (le_max_right a c) ht)

end Tiles

end ChannelDigests.Lib
