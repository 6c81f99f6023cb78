import Mathlib.Data.List.Nodup
import Mathlib.Data.List.Perm.Basic
import Mathlib.Data.List.Sort

/-!
# Tables as lists of rows

* `updateWhere p u rows`   the rows after `update … set u where p`;
* `KeyUnique key rows`     no two rows share a key.

Rows are inserted at the end.  The lemmas say which rows a table holds after an update and which
filters and keys an update leaves alone.
-/

namespace ChannelDigests.Lib

variable {ρ κ : Type}

/-- `update rows set u where p`. -/
def updateWhere (p : ρ → Bool) (u : ρ → ρ) (rows : List ρ) : List ρ :=
  rows.map fun r => if p r then u r else r

variable {p q : ρ → Bool} {u : ρ → ρ} {rows : List ρ}

theorem mem_updateWhere {r : ρ} :
    r ∈ updateWhere p u rows ↔ ∃ o ∈ rows, (p o = true ∧ r = u o) ∨ (p o = false ∧ r = o) := by
  unfold updateWhere
  rw [List.mem_map]
  refine exists_congr fun o => and_congr_right fun _ => ?_
  cases h : p o <;> simp [eq_comm]

theorem updateWhere_append (p : ρ → Bool) (u : ρ → ρ) (a b : List ρ) :
    updateWhere p u (a ++ b) = updateWhere p u a ++ updateWhere p u b := List.map_append

@[simp] theorem updateWhere_nil (p : ρ → Bool) (u : ρ → ρ) : updateWhere p u [] = [] := rfl

theorem updateWhere_eq_self (h : ∀ r ∈ rows, p r = true → u r = r) : updateWhere p u rows = rows := by
  unfold updateWhere
  conv_rhs => rw [← List.map_id rows]
  refine List.map_congr_left fun r hr => ?_
  by_cases hp : p r = true
  · rw [if_pos hp, h r hr hp]; rfl
  · rw [if_neg hp]; rfl

theorem updateWhere_none (h : ∀ r ∈ rows, p r = false) : updateWhere p u rows = rows :=
  updateWhere_eq_self fun r hr hp => by rw [h r hr] at hp; cases hp

/-- a column that the update does not write is unchanged. -/
theorem map_updateWhere (key : ρ → κ) (h : ∀ r, p r = true → key (u r) = key r) :
    (updateWhere p u rows).map key = rows.map key := by
  unfold updateWhere
  rw [List.map_map]
  refine List.map_congr_left fun r _ => ?_
  by_cases hp : p r = true
  · simp [hp, h r hp]
  · simp [hp]

/-- the first row that an update has written. -/
theorem find?_updateWhere {row : ρ} (hp : p row = true) (h : (rows.find? p).isSome = true) :
    (updateWhere p (fun _ => row) rows).find? p = some row := by
  induction rows with
  | nil => cases h
  | cons r rows ih =>
    rw [updateWhere, List.map_cons, List.find?_cons]
    by_cases hr : p r = true
    · simp [hr, hp]
    · simp only [hr, Bool.false_eq_true, if_false]
      exact ih (by rwa [List.find?_cons_of_neg (by simpa using hr)] at h)

/-- a search that finds none of the written rows, before or after. -/
theorem find?_updateWhere_of_not (h : ∀ r, p r = true → q r = false ∧ q (u r) = false) :
    (updateWhere p u rows).find? q = rows.find? q := by
  induction rows with
  | nil => rfl
  | cons r rows ih =>
    show List.find? q ((if p r then u r else r) :: updateWhere p u rows) = _
    by_cases hp : p r = true
    · rw [if_pos hp, List.find?_cons, List.find?_cons, (h r hp).1, (h r hp).2]
      exact ih
    · rw [if_neg hp, List.find?_cons, List.find?_cons, ih]

/-- a filter on columns that the update does not write commutes with it. -/
theorem filter_updateWhere (h : ∀ r, p r = true → q (u r) = q r) :
    (updateWhere p u rows).filter q = updateWhere p u (rows.filter q) := by
  induction rows with
  | nil => rfl
  | cons r rows ih =>
    have hq : q (if p r then u r else r) = q r := by
      by_cases hp : p r = true
      · rw [if_pos hp, h r hp]
      · rw [if_neg hp]
    show List.filter q ((if p r then u r else r) :: updateWhere p u rows) = _
    rw [List.filter_cons, List.filter_cons, hq, ih]
    cases q r <;> rfl

/-- an update after which no more rows are counted. -/
theorem countP_updateWhere_le (h : ∀ r ∈ rows, p r = true → q (u r) = true → q r = true) :
    (updateWhere p u rows).countP q ≤ rows.countP q := by
  unfold updateWhere
  rw [List.countP_map]
  refine List.countP_mono_left fun r hr hq => ?_
  dsimp only [Function.comp] at hq
  by_cases hp : p r = true
  · rw [if_pos hp] at hq
    exact h r hr hp hq
  · rwa [if_neg hp] at hq

@[simp] theorem length_updateWhere : (updateWhere p u rows).length = rows.length := List.length_map ..

/-! ## Keys -/

/-- no two rows share a key. -/
def KeyUnique (key : ρ → κ) (rows : List ρ) : Prop := (rows.map key).Nodup

variable {key : ρ → κ}

theorem KeyUnique.nil : KeyUnique key ([] : List ρ) := List.nodup_nil

theorem KeyUnique.eq (h : KeyUnique key rows) {a b : ρ} (ha : a ∈ rows) (hb : b ∈ rows)
    (hk : key a = key b) : a = b := List.inj_on_of_nodup_map h ha hb hk

theorem KeyUnique.snoc (h : KeyUnique key rows) {r : ρ} (hr : ∀ o ∈ rows, key o ≠ key r) :
    KeyUnique key (rows ++ [r]) := by
  unfold KeyUnique
  rw [List.map_append, List.nodup_append]
  refine ⟨h, by simp, fun k hk l hl => ?_⟩
  obtain ⟨o, ho, rfl⟩ := List.mem_map.mp hk
  obtain rfl : key r = l := by simpa [eq_comm] using hl
  exact hr o ho

theorem KeyUnique.update (h : KeyUnique key rows) (hu : ∀ r, p r = true → key (u r) = key r) :
    KeyUnique key (updateWhere p u rows) := by
  unfold KeyUnique
  rw [map_updateWhere key hu]
  exact h

/-- the one row that an update writes takes a key that no row has. -/
theorem KeyUnique.replace (h : KeyUnique key rows)
    (hone : ∀ a ∈ rows, ∀ b ∈ rows, p a = true → p b = true → a = b)
    (hnew : ∀ a ∈ rows, p a = true → ∀ o ∈ rows, key o ≠ key (u a)) :
    KeyUnique key (updateWhere p u rows) := by
  unfold KeyUnique updateWhere
  rw [List.map_map, List.nodup_iff_pairwise_ne, List.pairwise_map]
  refine (List.pairwise_map.mp h).imp_of_mem ?_
  intro a b ha hb hab
  show key (if p a then u a else a) ≠ key (if p b then u b else b)
  by_cases hpa : p a = true
  · by_cases hpb : p b = true
    · exact absurd (congrArg key (hone a ha b hb hpa hpb)) hab
    · rw [if_pos hpa, if_neg hpb]
      exact (hnew a ha hpa b hb).symm
  · by_cases hpb : p b = true
    · rw [if_neg hpa, if_pos hpb]
      exact hnew b hb hpb a ha
    · rw [if_neg hpa, if_neg hpb]
      exact hab

/-- an update of one row counts at most one row more. -/
theorem KeyUnique.countP_updateWhere [DecidableEq κ] (h : KeyUnique key rows) (k : κ) (q : ρ → Bool)
    (u : ρ → ρ) :
    (updateWhere (fun r => decide (key r = k)) u rows).countP q ≤ rows.countP q + 1 := by
  induction rows with
  | nil => exact Nat.zero_le _
  | cons r rows ih =>
    obtain ⟨hno, hrows⟩ := List.nodup_cons.mp h
    show List.countP q ((if decide (key r = k) = true then u r else r) :: updateWhere _ u rows) ≤ _
    by_cases hr : key r = k
    · -- the only row with the key: the rest is as it was.
      have hrest : updateWhere (fun r => decide (key r = k)) u rows = rows :=
        updateWhere_none fun o ho => decide_eq_false fun hk =>
          hno (List.mem_map.mpr ⟨o, ho, hk.trans hr.symm⟩)
      rw [hrest, List.countP_cons, List.countP_cons]
      split_ifs <;> omega
    · rw [if_neg (by simpa using hr), List.countP_cons, List.countP_cons]
      have := ih hrows
      omega

/-- a search for a key and more finds the one row that has it. -/
theorem KeyUnique.find? (h : KeyUnique key rows) {r : ρ} (hr : r ∈ rows) (hp : p r = true)
    (hk : ∀ o ∈ rows, p o = true → key o = key r) : rows.find? p = some r := by
  rcases hf : rows.find? p with _ | o
  · exact absurd hp (List.find?_eq_none.mp hf r hr)
  · have ho := List.mem_of_find?_eq_some hf
    rw [h.eq ho hr (hk o ho (List.find?_some hf))]

/-- the only row with a given key. -/
theorem KeyUnique.filter_eq (h : KeyUnique key rows) [DecidableEq κ] {r : ρ} (hr : r ∈ rows) :
    rows.filter (fun o => key o = key r) = [r] := by
  induction rows with
  | nil => cases hr
  | cons o rows ih =>
    obtain ⟨hno, hrows⟩ := List.nodup_cons.mp h
    rcases List.mem_cons.mp hr with rfl | hr
    · rw [List.filter_cons, if_pos (by simp), List.filter_eq_nil_iff.mpr]
      intro o ho hk
      exact hno (List.mem_map.mpr ⟨o, ho, by simpa using hk⟩)
    · rw [List.filter_cons, if_neg, ih hrows hr]
      intro hk
      exact hno (List.mem_map.mpr ⟨r, hr, by simpa [eq_comm] using hk⟩)

/-- the one row that `p` holds of. -/
theorem KeyUnique.countP_one (h : KeyUnique key rows) [DecidableEq κ] {r : ρ} (hr : r ∈ rows)
    (hp : p r = true) (hkey : ∀ o, p o = true → key o = key r) : rows.countP p = 1 := by
  have hcount : rows.countP p = (rows.filter fun o => key o = key r).countP p := by
    rw [List.countP_filter]
    refine List.countP_congr fun o _ => ?_
    rw [Bool.and_eq_true, decide_eq_true_eq]
    exact ⟨fun ho => ⟨ho, hkey o ho⟩, And.left⟩
  rw [hcount, h.filter_eq hr, List.countP_singleton, hp]
  rfl

theorem KeyUnique.nodup (h : KeyUnique key rows) : rows.Nodup := List.Nodup.of_map key h

theorem KeyUnique.filter (h : KeyUnique key rows) (p : ρ → Bool) : KeyUnique key (rows.filter p) :=
  h.sublist (List.filter_sublist.map key)

/-- a key that determines another key. -/
theorem KeyUnique.of_key {κ' : Type} {key' : ρ → κ'} (h : KeyUnique key rows)
    (hk : ∀ a b, key' a = key' b → key a = key b) : KeyUnique key' rows := by
  have hne := List.pairwise_map.mp h
  exact List.pairwise_map.mpr (hne.imp fun hab he => hab (hk _ _ he))

/-- rows with unique keys are listed in one order, however the table holds them. -/
theorem KeyUnique.insertionSort_eq [LinearOrder κ] {rows' : List ρ} (h : KeyUnique key rows)
    (h' : KeyUnique key rows') (hmem : ∀ r, r ∈ rows ↔ r ∈ rows') :
    rows.insertionSort (fun a b => key b ≤ key a) = rows'.insertionSort fun a b => key b ≤ key a := by
  have hperm : List.Perm (rows.insertionSort fun a b => key b ≤ key a)
      (rows'.insertionSort fun a b => key b ≤ key a) :=
    ((List.perm_insertionSort _ _).trans
      ((List.perm_ext_iff_of_nodup h.nodup h'.nodup).mpr hmem)).trans
      (List.perm_insertionSort _ _).symm
  have total : ∀ a b : ρ, key b ≤ key a ∨ key a ≤ key b := fun a b => le_total _ _
  have trans : ∀ a b c : ρ, key b ≤ key a → key c ≤ key b → key c ≤ key a :=
    fun a b c hab hbc => le_trans hbc hab
  have : Std.Total fun a b : ρ => key b ≤ key a := ⟨total⟩
  have : IsTrans ρ fun a b => key b ≤ key a := ⟨trans⟩
  refine hperm.eq_of_pairwise ?_ (List.pairwise_insertionSort _ _) (List.pairwise_insertionSort _ _)
  intro a b ha hb hab hba
  have hb' : b ∈ rows := (hmem b).mpr ((List.mem_insertionSort _).mp hb)
  exact h.eq ((List.mem_insertionSort _).mp ha) hb' (le_antisymm hba hab)

/-- rows that are joined with at most one row each keep their key. -/
theorem KeyUnique.flatMap {σ : Type} {key' : σ → κ} {f : ρ → List σ} (h : KeyUnique key rows)
    (hone : ∀ r ∈ rows, (f r).length ≤ 1) (hkey : ∀ r ∈ rows, ∀ x ∈ f r, key' x = key r) :
    KeyUnique key' (rows.flatMap f) := by
  unfold KeyUnique
  rw [List.map_flatMap, List.nodup_flatMap]
  constructor
  · intro r hr
    have := hone r hr
    rcases hf : f r with _ | ⟨x, _ | ⟨y, rest⟩⟩
    · exact List.nodup_nil
    · exact List.nodup_singleton _
    · simp [hf] at this
  · refine (List.pairwise_map.mp h).imp_of_mem ?_
    intro a b ha hb hab k hka hkb
    obtain ⟨x, hx, rfl⟩ := List.mem_map.mp hka
    obtain ⟨y, hy, hxy⟩ := List.mem_map.mp hkb
    exact hab (by rw [← hkey a ha x hx, ← hkey b hb y hy, hxy])

/-- a search for one key finds the same row in tables that agree on it. -/
theorem KeyUnique.find?_eq {rows' : List ρ} (h : KeyUnique key rows')
    (hkey : ∀ a b, p a = true → p b = true → key a = key b)
    (hmem : ∀ r, p r = true → (r ∈ rows ↔ r ∈ rows')) : rows.find? p = rows'.find? p := by
  rcases hf : rows.find? p with _ | r
  · refine (List.find?_eq_none.mpr fun r hr hp => ?_).symm
    exact List.find?_eq_none.mp hf r ((hmem r hp).mpr hr) hp
  · have hp := List.find?_some hf
    have hr := (hmem r hp).mp (List.mem_of_find?_eq_some hf)
    exact (h.find? hr hp fun o _ ho => hkey o r ho hp).symm

end ChannelDigests.Lib
