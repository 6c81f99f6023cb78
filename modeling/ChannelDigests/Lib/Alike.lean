import ChannelDigests.Lib.Table
import Mathlib.Data.List.Forall2

/-!
# Lists of related rows

* `mem_left`, `mem_right`       a row of one list is related to a row of the other;
* `map_alike`, `countP_alike`   what is the same of related rows is the same of the lists;
* `any_alike`, `find_alike`     searches by what is the same;
* `sort_alike`, `updateWhere_alike`, `set_alike`   what is done to both lists alike.
-/

namespace ChannelDigests.Lib

section
variable {α β : Type} {R : α → β → Prop} {as : List α} {bs : List β}

theorem mem_left (h : List.Forall₂ R as bs) {a : α} (ha : a ∈ as) : ∃ b ∈ bs, R a b := by
  induction h with
  | nil => cases ha
  | @cons a' b as bs hab _ ih =>
    rcases List.mem_cons.mp ha with rfl | ha
    · exact ⟨b, List.mem_cons_self, hab⟩
    · obtain ⟨b, hb, hab⟩ := ih ha
      exact ⟨b, List.mem_cons_of_mem _ hb, hab⟩

theorem mem_right (h : List.Forall₂ R as bs) {b : β} (hb : b ∈ bs) : ∃ a ∈ as, R a b := by
  induction h with
  | nil => cases hb
  | @cons a b' as bs hab _ ih =>
    rcases List.mem_cons.mp hb with rfl | hb
    · exact ⟨a, List.mem_cons_self, hab⟩
    · obtain ⟨a, ha, hab⟩ := ih hb
      exact ⟨a, List.mem_cons_of_mem _ ha, hab⟩

theorem map_alike {γ : Type} {f : α → γ} {g : β → γ} (h : List.Forall₂ R as bs)
    (hfg : ∀ a b, R a b → f a = g b) : as.map f = bs.map g := by
  induction h with
  | nil => rfl
  | cons hab _ ih => rw [List.map_cons, List.map_cons, ih, hfg _ _ hab]

theorem countP_alike {p : α → Bool} {q : β → Bool} (h : List.Forall₂ R as bs)
    (hpq : ∀ a b, R a b → p a = q b) : as.countP p = bs.countP q := by
  induction h with
  | nil => rfl
  | cons hab _ ih => rw [List.countP_cons, List.countP_cons, ih, hpq _ _ hab]

theorem any_alike {p : α → Bool} {q : β → Bool} (h : List.Forall₂ R as bs)
    (hpq : ∀ a b, R a b → p a = q b) : as.any p = bs.any q := by
  induction h with
  | nil => rfl
  | cons hab _ ih => rw [List.any_cons, List.any_cons, ih, hpq _ _ hab]

theorem all_alike {p : α → Bool} {q : β → Bool} (h : List.Forall₂ R as bs)
    (hpq : ∀ a b, R a b → p a = q b) : as.all p = bs.all q := by
  induction h with
  | nil => rfl
  | cons hab _ ih => rw [List.all_cons, List.all_cons, ih, hpq _ _ hab]

/-- the first rows found are related. -/
theorem find_alike {p : α → Bool} {q : β → Bool} (h : List.Forall₂ R as bs)
    (hpq : ∀ a b, R a b → p a = q b) :
    (as.find? p = none ∧ bs.find? q = none) ∨
      ∃ a b, as.find? p = some a ∧ bs.find? q = some b ∧ R a b := by
  induction h with
  | nil => exact .inl ⟨rfl, rfl⟩
  | @cons a b as bs hab _ ih =>
    rw [List.find?_cons, List.find?_cons, hpq a b hab]
    cases q b with
    | true => exact .inr ⟨a, b, rfl, rfl, hab⟩
    | false => exact ih

theorem filter_alike {p : α → Bool} {q : β → Bool} (h : List.Forall₂ R as bs)
    (hpq : ∀ a b, R a b → p a = q b) : List.Forall₂ R (as.filter p) (bs.filter q) := by
  induction h with
  | nil => exact .nil
  | @cons a b as bs hab _ ih =>
    rw [List.filter_cons, List.filter_cons, hpq a b hab]
    cases q b with
    | true => exact .cons hab ih
    | false => exact ih

theorem rowInsert_alike {r : α → α → Prop} {r' : β → β → Prop} [DecidableRel r] [DecidableRel r']
    {a : α} {b : β} (h : List.Forall₂ R as bs) (hab : R a b)
    (hr : ∀ a₁ b₁ a₂ b₂, R a₁ b₁ → R a₂ b₂ → (r a₁ a₂ ↔ r' b₁ b₂)) :
    List.Forall₂ R (as.orderedInsert r a) (bs.orderedInsert r' b) := by
  induction h with
  | nil => exact .cons hab .nil
  | @cons a₁ b₁ as bs h₁ ht ih =>
    rw [List.orderedInsert_cons, List.orderedInsert_cons]
    by_cases hle : r a a₁
    · rw [if_pos hle, if_pos ((hr _ _ _ _ hab h₁).mp hle)]
      exact .cons hab (.cons h₁ ht)
    · rw [if_neg hle, if_neg fun h => hle ((hr _ _ _ _ hab h₁).mpr h)]
      exact .cons h₁ ih

/-- lists that are sorted by what is the same. -/
theorem sort_alike {r : α → α → Prop} {r' : β → β → Prop} [DecidableRel r] [DecidableRel r']
    (h : List.Forall₂ R as bs)
    (hr : ∀ a₁ b₁ a₂ b₂, R a₁ b₁ → R a₂ b₂ → (r a₁ a₂ ↔ r' b₁ b₂)) :
    List.Forall₂ R (as.insertionSort r) (bs.insertionSort r') := by
  induction h with
  | nil => exact .nil
  | cons hab _ ih => exact rowInsert_alike ih hab hr

theorem reverse_alike (h : List.Forall₂ R as bs) : List.Forall₂ R as.reverse bs.reverse :=
  List.rel_reverse h

theorem updateWhere_alike {p : α → Bool} {q : β → Bool} {u : α → α} {v : β → β}
    (h : List.Forall₂ R as bs) (hpq : ∀ a b, R a b → p a = q b)
    (huv : ∀ a b, R a b → R (u a) (v b)) :
    List.Forall₂ R (updateWhere p u as) (updateWhere q v bs) := by
  induction h with
  | nil => exact .nil
  | @cons a b as bs hab _ ih =>
    refine .cons ?_ ih
    show R (if p a = true then u a else a) (if q b = true then v b else b)
    rw [hpq a b hab]
    cases q b with
    | true => exact huv a b hab
    | false => exact hab

theorem getElem?_alike (h : List.Forall₂ R as bs) (i : Nat) :
    (as[i]? = none ∧ bs[i]? = none) ∨ ∃ a b, as[i]? = some a ∧ bs[i]? = some b ∧ R a b := by
  induction h generalizing i with
  | nil => exact .inl ⟨rfl, rfl⟩
  | @cons a b as bs hab _ ih =>
    cases i with
    | zero => exact .inr ⟨a, b, rfl, rfl, hab⟩
    | succ i => exact ih i

theorem set_alike (h : List.Forall₂ R as bs) (i : Nat) {a : α} {b : β} (hab : R a b) :
    List.Forall₂ R (as.set i a) (bs.set i b) := by
  induction h generalizing i with
  | nil => exact .nil
  | cons h₁ ht ih =>
    cases i with
    | zero => exact .cons hab ht
    | succ i => exact .cons h₁ (ih i)

end

end ChannelDigests.Lib
