import Mathlib.Data.List.MinMax
import Mathlib.Data.Int.Order.Basic
import Mathlib.Tactic.Common

/-!
# Pages of a list with falling keys

A list is read newest first in pages of at most `n` rows: the rows below a cursor, and after a full
page the cursor is the key of its last row.

* `Falling key rows`       every row has a smaller key than the rows before it;
* `pageOf`, `cursorAfter`  one page and the cursor that it leaves;
* `mem_pageOf`             a page holds rows below its cursor;
* `pageOf_complete`        **a page misses no row between its two cursors**;
* `cursorAfter_min`        the next cursor is the least key of the page.
-/

namespace ChannelDigests.Lib

section
variable {α : Type} (key : α → Int)

/-- the keys fall along the list. -/
def Falling (rows : List α) : Prop := rows.Pairwise fun a b => key b < key a

/-- the rows below a cursor; without a cursor, all of them. -/
def rowsBelow (cursor : Option Int) (rows : List α) : List α :=
  rows.filter fun a => cursor.all fun b => decide (key a < b)

/-- the first `n` rows below a cursor. -/
def pageOf (cursor : Option Int) (n : Nat) (rows : List α) : List α :=
  (rowsBelow key cursor rows).take n

/-- the cursor after a page of at most `n` rows: the key of its last row when the page is full. -/
def cursorAfter (n : Nat) (page : List α) : Option Int :=
  if page.length = n then page.getLast?.map key else none

end

section
variable {α : Type} {key : α → Int} {rows page : List α} {cursor : Option Int} {n : Nat} {a : α}

theorem mem_rowsBelow : a ∈ rowsBelow key cursor rows ↔ a ∈ rows ∧ ∀ b, cursor = some b → key a < b := by
  unfold rowsBelow
  rw [List.mem_filter]
  refine and_congr_right fun _ => ?_
  cases cursor with
  | none => simp
  | some b => simp

theorem Falling.rowsBelow (h : Falling key rows) : Falling key (rowsBelow key cursor rows) :=
  h.sublist List.filter_sublist

theorem Falling.pageOf (h : Falling key rows) : Falling key (pageOf key cursor n rows) :=
  h.rowsBelow.sublist (List.take_sublist _ _)

/-- a key has one row. -/
theorem Falling.eq {b : α} (h : Falling key rows) (ha : a ∈ rows) (hb : b ∈ rows)
    (hk : key a = key b) : a = b := by
  induction rows with
  | nil => cases ha
  | cons r rows ih =>
    obtain ⟨hr, h⟩ := List.pairwise_cons.mp h
    rcases List.mem_cons.mp ha with rfl | ha'
    · rcases List.mem_cons.mp hb with rfl | hb'
      · rfl
      · exact absurd hk (hr b hb').ne'
    · rcases List.mem_cons.mp hb with rfl | hb'
      · exact absurd hk (hr a ha').ne
      · exact ih h ha' hb'

/-- a page holds rows below its cursor. -/
theorem mem_pageOf (h : a ∈ pageOf key cursor n rows) :
    a ∈ rows ∧ ∀ b, cursor = some b → key a < b :=
  mem_rowsBelow.mp (List.mem_of_mem_take h)

theorem cursorAfter_eq_some {c : Int} (h : cursorAfter key n page = some c) :
    page.length = n ∧ ∃ a, page.getLast? = some a ∧ key a = c := by
  unfold cursorAfter at h
  split_ifs at h with hl
  exact ⟨hl, Option.map_eq_some_iff.mp h⟩

/-- the next cursor is the key of a row of the page. -/
theorem cursorAfter_mem {c : Int} (h : cursorAfter key n page = some c) : ∃ a ∈ page, key a = c := by
  obtain ⟨-, a, ha, hk⟩ := cursorAfter_eq_some h
  exact ⟨a, List.mem_of_getLast? ha, hk⟩

/-- and no row of the page lies below it. -/
theorem cursorAfter_le {c : Int} (hf : Falling key page) (h : cursorAfter key n page = some c)
    (ha : a ∈ page) : c ≤ key a := by
  obtain ⟨-, z, hz, rfl⟩ := cursorAfter_eq_some h
  obtain ⟨l, rfl⟩ := List.getLast?_eq_some_iff.mp hz
  rcases List.mem_append.mp ha with ha | ha
  · exact (((List.pairwise_append.mp hf).2.2 a ha z (List.mem_singleton.mpr rfl))).le
  · rw [List.mem_singleton.mp ha]

/-- the next cursor is the least key of the page. -/
theorem cursorAfter_min {c : Int} (hf : Falling key page) (h : cursorAfter key n page = some c) :
    (page.map key).min? = some c := by
  rw [List.min?_eq_some_iff]
  refine ⟨List.mem_map.mpr (cursorAfter_mem h), fun k hk => ?_⟩
  obtain ⟨a, ha, rfl⟩ := List.mem_map.mp hk
  exact cursorAfter_le hf h ha

/-- **A page misses no row between its two cursors**, and none below its own when it is not full. -/
theorem pageOf_complete (hf : Falling key rows) (hn : 0 < n) (ha : a ∈ rows)
    (hb : ∀ b, cursor = some b → key a < b)
    (hc : ∀ c, cursorAfter key n (pageOf key cursor n rows) = some c → c ≤ key a) :
    a ∈ pageOf key cursor n rows := by
  have hmem : a ∈ rowsBelow key cursor rows := mem_rowsBelow.mpr ⟨ha, hb⟩
  rw [← List.take_append_drop n (rowsBelow key cursor rows)] at hmem
  refine (List.mem_append.mp hmem).resolve_right fun hdrop => ?_
  -- a row beyond the page lies below its last row, which is the next cursor.
  have hlen : (pageOf key cursor n rows).length = n := by
    rw [pageOf, List.length_take, Nat.min_eq_left]
    have := List.length_pos_of_mem hdrop
    rw [List.length_drop] at this
    omega
  have hne : pageOf key cursor n rows ≠ [] := List.ne_nil_of_length_pos (by omega)
  have hlast := List.getLast?_eq_some_getLast hne
  have hcur := hc (key ((pageOf key cursor n rows).getLast hne)) (by
    rw [cursorAfter, if_pos hlen, hlast]
    rfl)
  have hsplit : Falling key (pageOf key cursor n rows ++ (rowsBelow key cursor rows).drop n) := by
    rw [pageOf, List.take_append_drop]
    exact hf.rowsBelow
  have := (List.pairwise_append.mp hsplit).2.2 _ (List.getLast_mem hne) a hdrop
  omega

end

end ChannelDigests.Lib
