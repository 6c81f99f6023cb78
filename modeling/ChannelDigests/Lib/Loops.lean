import ChannelDigests.Lib.Pool
import Mathlib.Data.Finset.Card
import Mathlib.Data.Fintype.Basic
import Mathlib.Data.DFinsupp.WellFounded
import Mathlib.SetTheory.Ordinal.Rank

/-!
# Loops on a shared state

A process runs its tasks in lanes.  In each lane one task comes after the other, and between two
tasks a control decides what is begun next.  The process may end at any point, with its tasks in
progress, and be started again.

* `Loops`          the programs, the moves of the control, and what a restart makes of it;
* `Loops.Step`     one step of one lane, or of the control;
* `Site.restarted` the process ended and was started again;
* `Mirrors`        a pool holds every task in progress in a thread of its own;
* `Loops.mirrored` **a run of the loops is a run of the pool**;
* `Loops.Run.keeps`, `Loops.Run.leaves`, `Loops.goes_on`   what holds of control and tasks together;
* `Loops.does`     a whole task of a lane, under given answers;
* `Site.begun`, `Loops.Works.begun_le`   **a budget bounds what is begun**;
* `Loops.rests`    **loops whose control only runs down come to rest**.
-/

namespace ChannelDigests.Lib
open Pool

/-- loops over the signature `S`: lanes `ι`, controls `κ`, tasks `τ`. -/
structure Loops (S : Signature) (ι κ τ ε β : Type) where
  body : τ → Prog S ε β
  /-- a move between tasks. -/
  moves : κ → κ → Prop
  /-- the lane begins a task. -/
  begins : ι → τ → κ → κ → Prop
  /-- the lane goes on after a task. -/
  ends : ι → τ → Except ε β → κ → κ → Prop
  restart : κ → κ

/-- where the loops are: the task of each lane, and the tasks that ended, in this order. -/
structure Site (S : Signature) (ι κ τ ε β : Type) where
  control : κ
  lanes : ι → Option (τ × Prog S ε β)
  ended : List (τ × Except ε β)
  state : S.State

section
variable {S : Signature} {ι κ τ ε β : Type} [DecidableEq ι] (L : Loops S ι κ τ ε β)

/-- one step: the control moves, or a task begins, is answered, takes an atomic step or ends. -/
inductive Loops.Step : Site S ι κ τ ε β → Site S ι κ τ ε β → Prop where
  | moved {c c' l h s} : L.moves c c' → Step ⟨c, l, h, s⟩ ⟨c', l, h, s⟩
  | began {c c' l h s} (i : ι) (t : τ) : l i = none → L.begins i t c c' →
      Step ⟨c, l, h, s⟩ ⟨c', Function.update l i (some (t, L.body t)), h, s⟩
  | asked {c l h s t q k} (i : ι) (a : S.Answer q) : l i = some (t, .ask q k) →
      Step ⟨c, l, h, s⟩ ⟨c, Function.update l i (some (t, k a)), h, s⟩
  | acted {c l h s t f k} (i : ι) : l i = some (t, .act f k) →
      Step ⟨c, l, h, s⟩ ⟨c, Function.update l i (some (t, k s)), h, f s⟩
  | ended {c c' l h s t r} (i : ι) : l i = some (t, .done r) → L.ends i t r c c' →
      Step ⟨c, l, h, s⟩ ⟨c', Function.update l i none, h ++ [(t, r)], s⟩

/-- the tasks in progress are dropped. -/
def Site.restarted (L : Loops S ι κ τ ε β) (x : Site S ι κ τ ε β) : Site S ι κ τ ε β :=
  ⟨L.restart x.control, fun _ => none, x.ended, x.state⟩

/-- any number of steps and restarts. -/
def Loops.Run : Site S ι κ τ ε β → Site S ι κ τ ε β → Prop :=
  Relation.ReflTransGen fun x y => L.Step x y ∨ y = x.restarted L

/-- any number of steps. -/
def Loops.Works : Site S ι κ τ ε β → Site S ι κ τ ε β → Prop := Relation.ReflTransGen L.Step

theorem Loops.Works.run {L : Loops S ι κ τ ε β} {x y : Site S ι κ τ ε β} (h : L.Works x y) :
    L.Run x y := by
  induction h with
  | refl => exact .refl
  | tail _ hstep ih => exact ih.tail (.inl hstep)

end

/-! ## Threads in progress are dropped -/

section
variable {S : Signature} {τ ε α : Type} {Y : System S τ ε α}

/-- **A pool may drop all that is in progress**; what has ended stays. -/
theorem drop_all (ts : List (Thread S τ ε α)) (s : S.State) :
    ∃ ts', Reach Y ⟨ts, s⟩ ⟨ts', s⟩ ∧ (∀ u ∈ ts', ¬ u.Running) ∧
      ∀ u ∈ ts, ∀ r, u.Answered r → u ∈ ts' := by
  have general : ∀ n, ∃ ts', Reach Y ⟨ts, s⟩ ⟨ts', s⟩ ∧ ts'.length = ts.length ∧
      (∀ (j : Nat) u, j < n → ts'[j]? = some u → ¬ u.Running) ∧
      ∀ u ∈ ts, ∀ r, u.Answered r → u ∈ ts' := by
    intro n
    induction n with
    | zero => exact ⟨ts, .refl, rfl, fun j u hj => absurd hj (Nat.not_lt_zero j), fun u hu _ _ => hu⟩
    | succ n ih =>
      obtain ⟨ts', hreach, hlen, hdone, hkept⟩ := ih
      by_cases hrun : ∃ u, ts'[n]? = some u ∧ u.Running
      · obtain ⟨⟨t, p, b⟩, hn, rfl, hp⟩ := hrun
        have hlt := (List.getElem?_eq_some_iff.mp hn).1
        refine ⟨ts'.set n ⟨t, p, false⟩, hreach.tail (.dropped n hn hp), ?_, ?_, ?_⟩
        · rw [List.length_set, hlen]
        · intro j u hj hu hr
          by_cases hjn : n = j
          · subst hjn
            rw [List.getElem?_set_self hlt] at hu
            obtain rfl := Option.some.inj hu
            exact Bool.false_ne_true hr.1
          · rw [List.getElem?_set_ne hjn] at hu
            exact hdone j u (by omega) hu hr
        · intro u hu r hr
          obtain ⟨j, hj⟩ := List.mem_iff_getElem?.mp (hkept u hu r hr)
          have hjn : n ≠ j := by
            rintro rfl
            obtain rfl := Option.some.inj (hn.symm.trans hj)
            rw [hr.2] at hp
            cases hp
          refine List.mem_iff_getElem?.mpr ⟨j, ?_⟩
          rw [List.getElem?_set_ne hjn]
          exact hj
      · refine ⟨ts', hreach, hlen, fun j u hj hu hr => ?_, hkept⟩
        rcases Nat.lt_succ_iff_lt_or_eq.mp hj with hj | rfl
        · exact hdone j u hj hu hr
        · exact hrun ⟨u, hu, hr⟩
  obtain ⟨ts', hreach, hlen, hdone, hkept⟩ := general ts.length
  refine ⟨ts', hreach, fun u hu => ?_, hkept⟩
  obtain ⟨j, hj⟩ := List.mem_iff_getElem?.mp hu
  have hlt := (List.getElem?_eq_some_iff.mp hj).1
  exact hdone j u (by omega) hj

end

/-! ## Loops on a pool -/

section
variable {S : Signature} {ι κ τ τ' ε ε' α β : Type} [DecidableEq ι] {L : Loops S ι κ τ ε β}
  {Y : System S τ' ε' α}

/-- the tasks of the loops are tasks of the system: `job` names them, and `result` reads their
ends. -/
structure Enacts (L : Loops S ι κ τ ε β) (Y : System S τ' ε' α) (fit : ι → τ → Prop) (job : τ → τ')
    (result : τ → Except ε β → Except ε' α) : Prop where
  body : ∀ t, Y.body (job t) = (L.body t).next fun r => .done (result t r)
  begins : ∀ {i t c c'}, L.begins i t c c' → fit i t
  starts : ∀ {i t ts}, fit i t →
    (∀ u ∈ ts, u.Running → ∃ j t', j ≠ i ∧ fit j t' ∧ u.task = job t') → Y.starts ts (job t)
  answers : ∀ t q a, Y.answers (job t) q a

/-- the threads of a pool: the tasks in progress are in threads of their own, no other thread runs,
and what has ended is there with its answer. -/
structure Mirrors (fit : ι → τ → Prop) (job : τ → τ') (result : τ → Except ε β → Except ε' α)
    (lanes : ι → Option (τ × Prog S ε β)) (ended : List (τ × Except ε β))
    (ts : List (Thread S τ' ε' α)) (place : ι → Nat) : Prop where
  fits : ∀ i t p, lanes i = some (t, p) → fit i t
  threads : ∀ i t p, lanes i = some (t, p) →
    ts[place i]? = some ⟨job t, p.next fun r => .done (result t r), true⟩
  only : ∀ (n : Nat) u, ts[n]? = some u → u.Running → ∃ i, (lanes i).isSome = true ∧ place i = n
  apart : ∀ i j, (lanes i).isSome = true → (lanes j).isSome = true → place i = place j → i = j
  ended : ∀ t r, (t, r) ∈ ended → ∃ u ∈ ts, u.task = job t ∧ u.Answered (result t r)

variable {fit : ι → τ → Prop} {job : τ → τ'} {result : τ → Except ε β → Except ε' α}
  {lanes : ι → Option (τ × Prog S ε β)} {ended : List (τ × Except ε β)}
  {ts : List (Thread S τ' ε' α)} {place : ι → Nat}

omit [DecidableEq ι] in
/-- a running thread is the task of a lane. -/
theorem Mirrors.lane (h : Mirrors fit job result lanes ended ts place) {u : Thread S τ' ε' α}
    (hu : u ∈ ts) (hr : u.Running) : ∃ i t p, lanes i = some (t, p) ∧ u.task = job t := by
  obtain ⟨n, hn⟩ := List.mem_iff_getElem?.mp hu
  obtain ⟨i, hi, rfl⟩ := h.only n u hn hr
  obtain ⟨⟨t, p⟩, hl⟩ := Option.isSome_iff_exists.mp hi
  obtain rfl := Option.some.inj ((h.threads i t p hl).symm.trans hn)
  exact ⟨i, t, p, hl, rfl⟩

/-- a task begins in a new thread. -/
theorem Mirrors.began (h : Mirrors fit job result lanes ended ts place) {i : ι} {t : τ}
    {p : Prog S ε β} (hi : lanes i = none) (hfit : fit i t) :
    Mirrors fit job result (Function.update lanes i (some (t, p))) ended
      (ts ++ [⟨job t, p.next fun r => .done (result t r), true⟩])
      (Function.update place i ts.length) := by
  have other : ∀ {j}, j ≠ i → Function.update lanes i (some (t, p)) j = lanes j := fun hj =>
    Function.update_of_ne hj _ _
  have old : ∀ {j}, (lanes j).isSome = true → place j < ts.length := by
    intro j hj
    obtain ⟨⟨t', p'⟩, hl⟩ := Option.isSome_iff_exists.mp hj
    exact (List.getElem?_eq_some_iff.mp (h.threads j t' p' hl)).1
  refine ⟨fun j t' p' hj => ?_, fun j t' p' hj => ?_, fun n u hn hr => ?_, fun j k hj hk he => ?_,
    fun t' r hmem => ?_⟩
  · by_cases hji : j = i
    · subst hji
      rw [Function.update_self] at hj
      cases hj
      exact hfit
    · rw [other hji] at hj
      exact h.fits j t' p' hj
  · by_cases hji : j = i
    · subst hji
      rw [Function.update_self] at hj
      cases hj
      rw [Function.update_self, List.getElem?_concat_length]
    · rw [other hji] at hj
      have hlt := old (Option.isSome_iff_exists.mpr ⟨_, hj⟩)
      rw [Function.update_of_ne hji, List.getElem?_append_left hlt]
      exact h.threads j t' p' hj
  · rcases Nat.lt_or_ge n ts.length with hlt | hge
    · rw [List.getElem?_append_left hlt] at hn
      obtain ⟨j, hj, hplace⟩ := h.only n u hn hr
      have hji : j ≠ i := by
        rintro rfl
        rw [hi] at hj
        cases hj
      exact ⟨j, by rw [other hji]; exact hj, by rw [Function.update_of_ne hji]; exact hplace⟩
    · refine ⟨i, by rw [Function.update_self]; rfl, ?_⟩
      rw [Function.update_self]
      have hlt := (List.getElem?_eq_some_iff.mp hn).1
      rw [List.length_append, List.length_singleton] at hlt
      omega
  · by_cases hji : j = i
    · by_cases hki : k = i
      · rw [hji, hki]
      · subst hji
        rw [Function.update_self, Function.update_of_ne hki] at he
        rw [other hki] at hk
        exact absurd (old hk) (by omega)
    · by_cases hki : k = i
      · subst hki
        rw [Function.update_self, Function.update_of_ne hji] at he
        rw [other hji] at hj
        exact absurd (old hj) (by omega)
      · rw [Function.update_of_ne hji, Function.update_of_ne hki] at he
        rw [other hji] at hj
        rw [other hki] at hk
        exact h.apart j k hj hk he
  · obtain ⟨u, hu, hans⟩ := h.ended t' r hmem
    exact ⟨u, List.mem_append_left _ hu, hans⟩

/-- the task of a lane goes on in its thread. -/
theorem Mirrors.went (h : Mirrors fit job result lanes ended ts place) {i : ι} {t : τ}
    {p p' : Prog S ε β} (hi : lanes i = some (t, p)) (hp : p.answer? = none) :
    Mirrors fit job result (Function.update lanes i (some (t, p'))) ended
      (ts.set (place i) ⟨job t, p'.next fun r => .done (result t r), true⟩) place := by
  have hthread := h.threads i t p hi
  have hlt := (List.getElem?_eq_some_iff.mp hthread).1
  have hsome : (lanes i).isSome = true := by rw [hi]; rfl
  have same : ∀ j, (Function.update lanes i (some (t, p')) j).isSome = (lanes j).isSome := by
    intro j
    by_cases hji : j = i
    · subst hji
      rw [Function.update_self, hi]
      rfl
    · rw [Function.update_of_ne hji]
  refine ⟨fun j t' q hj => ?_, fun j t' q hj => ?_, fun n u hn hr => ?_, fun j k hj hk he => ?_,
    fun t' r hmem => ?_⟩
  · by_cases hji : j = i
    · subst hji
      rw [Function.update_self] at hj
      cases hj
      exact h.fits j t p hi
    · rw [Function.update_of_ne hji] at hj
      exact h.fits j t' q hj
  · by_cases hji : j = i
    · subst hji
      rw [Function.update_self] at hj
      cases hj
      exact List.getElem?_set_self hlt
    · rw [Function.update_of_ne hji] at hj
      have hne : place i ≠ place j := fun he =>
        hji (h.apart i j hsome (by rw [hj]; rfl) he).symm
      rw [List.getElem?_set_ne hne]
      exact h.threads j t' q hj
  · by_cases hni : place i = n
    · exact ⟨i, by rw [same]; exact hsome, hni⟩
    · rw [List.getElem?_set_ne hni] at hn
      obtain ⟨j, hj, hplace⟩ := h.only n u hn hr
      exact ⟨j, by rw [same]; exact hj, hplace⟩
  · rw [same] at hj hk
    exact h.apart j k hj hk he
  · obtain ⟨u, hu, htask, hans⟩ := h.ended t' r hmem
    obtain ⟨n, hn⟩ := List.mem_iff_getElem?.mp hu
    have hne : place i ≠ n := by
      rintro rfl
      obtain rfl := Option.some.inj (hthread.symm.trans hn)
      have hdone : (p.next fun r => .done (result t r)).answer? = none := by
        rw [Prog.answer?_next, hp]
        rfl
      have hrest : (p.next fun r => .done (result t r)) = .done (result t' r) := hans.2
      rw [hrest] at hdone
      cases hdone
    refine ⟨u, List.mem_iff_getElem?.mpr ⟨n, ?_⟩, htask, hans⟩
    rw [List.getElem?_set_ne hne]
    exact hn

/-- a task ends: its thread has its answer. -/
theorem Mirrors.finished (h : Mirrors fit job result lanes ended ts place) {i : ι} {t : τ}
    {r : Except ε β} (hi : lanes i = some (t, .done r)) :
    Mirrors fit job result (Function.update lanes i none) (ended ++ [(t, r)]) ts place := by
  have hthread := h.threads i t _ hi
  have kept : ∀ {j}, (Function.update lanes i none j).isSome = true →
      j ≠ i ∧ (lanes j).isSome = true := by
    intro j hj
    by_cases hji : j = i
    · subst hji
      rw [Function.update_self] at hj
      cases hj
    · rw [Function.update_of_ne hji] at hj
      exact ⟨hji, hj⟩
  have lane : ∀ {j t' p}, Function.update lanes i none j = some (t', p) → lanes j = some (t', p) := by
    intro j t' p hj
    have hji := (kept (by rw [hj]; rfl)).1
    rwa [Function.update_of_ne hji] at hj
  refine ⟨fun j t' p hj => h.fits j t' p (lane hj), fun j t' p hj => h.threads j t' p (lane hj),
    fun n u hn hr => ?_, fun j k hj hk he => h.apart j k (kept hj).2 (kept hk).2 he,
    fun t' r' hmem => ?_⟩
  · obtain ⟨j, hj, hplace⟩ := h.only n u hn hr
    have hji : j ≠ i := by
      rintro rfl
      subst hplace
      obtain rfl := Option.some.inj (hthread.symm.trans hn)
      cases hr.2
    exact ⟨j, by rw [Function.update_of_ne hji]; exact hj, hplace⟩
  · rcases List.mem_append.mp hmem with hmem | hmem
    · exact h.ended t' r' hmem
    · cases List.mem_singleton.mp hmem
      exact ⟨_, List.mem_of_getElem? hthread, rfl, rfl, rfl⟩

/-- one step of the loops is a number of moves of the pool. -/
theorem Mirrors.step (hL : Enacts L Y fit job result) {x y : Site S ι κ τ ε β}
    (h : Mirrors fit job result x.lanes x.ended ts place) (hstep : L.Step x y) :
    ∃ ts' place', Reach Y ⟨ts, x.state⟩ ⟨ts', y.state⟩ ∧
      Mirrors fit job result y.lanes y.ended ts' place' := by
  cases hstep with
  | moved _ => exact ⟨ts, place, .refl, h⟩
  | @began c c' l e s i t hi hbegins =>
    have hfit := hL.begins hbegins
    have hstart : Y.starts ts (job t) := by
      refine hL.starts hfit fun u hu hr => ?_
      obtain ⟨j, t', p, hj, htask⟩ := h.lane hu hr
      refine ⟨j, t', ?_, h.fits j t' p hj, htask⟩
      rintro rfl
      cases hi.symm.trans hj
    have hspawned : Reach Y ⟨ts, s⟩ ⟨ts ++ [⟨job t, Y.body (job t), true⟩], s⟩ :=
      .single (.spawned hstart)
    rw [hL.body] at hspawned
    exact ⟨_, Function.update place i ts.length, hspawned, h.began hi hfit⟩
  | @asked c l e s t q k i a hi =>
    refine ⟨_, place, .single (.asked (place i) (h.threads i t _ hi) (hL.answers t q a)), ?_⟩
    exact h.went hi rfl
  | @acted c l e s t f k i hi =>
    refine ⟨_, place, .single (.acted (place i) (h.threads i t _ hi)), ?_⟩
    exact h.went hi rfl
  | @ended c c' l e s t r i hi _ => exact ⟨ts, place, .refl, h.finished hi⟩

omit [DecidableEq ι] in
/-- a restart drops the threads in progress. -/
theorem Mirrors.restart {x : Site S ι κ τ ε β}
    (h : Mirrors fit job result x.lanes x.ended ts place) :
    ∃ ts', Reach Y ⟨ts, x.state⟩ ⟨ts', x.state⟩ ∧
      Mirrors fit job result (fun _ => none) x.ended ts' place := by
  obtain ⟨ts', hreach, hdone, hkept⟩ := drop_all (Y := Y) ts x.state
  refine ⟨ts', hreach, fun i t p hi => ?_, fun i t p hi => ?_, fun n u hn hr => ?_,
    fun i j hi _ _ => ?_, fun t r hmem => ?_⟩
  · cases hi
  · cases hi
  · exact absurd hr (hdone u (List.mem_of_getElem? hn))
  · cases hi
  · obtain ⟨u, hu, htask, hans⟩ := h.ended t r hmem
    exact ⟨u, hkept u hu _ hans, htask, hans⟩

/-- **A run of the loops is a run of the pool**, and the pool knows how the tasks ended. -/
theorem Loops.mirrored (hL : Enacts L Y fit job result) {c : κ} {s : S.State}
    {x : Site S ι κ τ ε β} (h : L.Run ⟨c, fun _ => none, [], s⟩ x) :
    ∃ ts, Reach Y ⟨[], s⟩ ⟨ts, x.state⟩ ∧
      ∀ t r, (t, r) ∈ x.ended → ∃ u ∈ ts, u.task = job t ∧ u.Answered (result t r) := by
  have general : ∃ ts place, Reach Y ⟨[], s⟩ ⟨ts, x.state⟩ ∧
      Mirrors fit job result x.lanes x.ended ts place := by
    induction h with
    | refl =>
      refine ⟨[], fun _ => 0, .refl, fun i t p hi => ?_, fun i t p hi => ?_, fun n u hn => ?_,
        fun i j hi => ?_, fun t r hmem => ?_⟩
      · cases hi
      · cases hi
      · cases hn
      · cases hi
      · cases hmem
    | tail _ hstep ih =>
      obtain ⟨ts, place, hreach, hm⟩ := ih
      rcases hstep with hstep | rfl
      · obtain ⟨ts', place', hmore, hm'⟩ := hm.step hL hstep
        exact ⟨ts', place', hreach.trans hmore, hm'⟩
      · obtain ⟨ts', hmore, hm'⟩ := hm.restart (Y := Y)
        exact ⟨ts', place, hreach.trans hmore, hm'⟩
  obtain ⟨ts, place, hreach, hm⟩ := general
  exact ⟨ts, hreach, hm.ended⟩

end

/-! ## What the loops keep -/

/-- every end of the program is in `Q`. -/
def Prog.Leaves {S : Signature} {ε β : Type} (Q : Except ε β → Prop) : Prog S ε β → Prop
  | .done r => Q r
  | .ask _ k => ∀ a, (k a).Leaves Q
  | .act _ k => ∀ s, (k s).Leaves Q

theorem leaves_next {S : Signature} {ε ε' α β : Type} {Q : Except ε' β → Prop}
    {k : Except ε α → Prog S ε' β} (hk : ∀ r, (k r).Leaves Q) (p : Prog S ε α) :
    (p.next k).Leaves Q := by
  induction p with
  | done r => exact hk r
  | ask q p ih => exact fun a => ih a
  | act f p ih => exact fun s => ih s

section
variable {S : Signature} {ι κ τ ε β : Type}

/-- the task of each lane. -/
def Site.tasks (x : Site S ι κ τ ε β) (i : ι) : Option τ := (x.lanes i).map Prod.fst

/-- the tasks in progress end as their tasks do. -/
def Site.Leaves (x : Site S ι κ τ ε β) (Q : τ → Except ε β → Prop) : Prop :=
  ∀ i t p, x.lanes i = some (t, p) → p.Leaves (Q t)

variable [DecidableEq ι] {L : Loops S ι κ τ ε β}

/-- the control and the tasks of the lanes, after any number of steps and restarts. -/
theorem Loops.Run.keeps {J : κ → (ι → Option τ) → Prop}
    (hmoves : ∀ {c c' b}, J c b → L.moves c c' → J c' b)
    (hbegins : ∀ {i t c c' b}, J c b → b i = none → L.begins i t c c' →
      J c' (Function.update b i (some t)))
    (hends : ∀ {i t r c c' b}, J c b → b i = some t → L.ends i t r c c' →
      J c' (Function.update b i none))
    (hrestart : ∀ c, J (L.restart c) fun _ => none) {x y : Site S ι κ τ ε β} (h : L.Run x y)
    (hx : J x.control x.tasks) : J y.control y.tasks := by
  have tasks_update : ∀ (l : ι → Option (τ × Prog S ε β)) (i : ι) (v : Option (τ × Prog S ε β)),
      (fun j => (Function.update l i v j).map Prod.fst) =
        Function.update (fun j => (l j).map Prod.fst) i (v.map Prod.fst) := by
    intro l i v
    funext j
    by_cases hji : j = i
    · subst hji
      rw [Function.update_self, Function.update_self]
    · rw [Function.update_of_ne hji, Function.update_of_ne hji]
  have tasks_same : ∀ {l : ι → Option (τ × Prog S ε β)} {i : ι} {t : τ} {p p' : Prog S ε β},
      l i = some (t, p) → (fun j => (Function.update l i (some (t, p')) j).map Prod.fst) =
        fun j => (l j).map Prod.fst := by
    intro l i t p p' hi
    rw [tasks_update]
    refine (Function.update_eq_self_iff).mpr ?_
    rw [hi]
    rfl
  induction h with
  | refl => exact hx
  | tail _ hstep ih =>
    rcases hstep with hstep | rfl
    · cases hstep with
      | moved hm => exact hmoves ih hm
      | @began c c' l e s i t hi hm =>
        have hnew := hbegins ih (show (l i).map Prod.fst = none by rw [hi]; rfl) hm
        show J c' fun j => (Function.update l i _ j).map Prod.fst
        rw [tasks_update]
        exact hnew
      | @asked c l e s t q k i a hi =>
        show J c fun j => (Function.update l i _ j).map Prod.fst
        rw [tasks_same hi]
        exact ih
      | @acted c l e s t f k i hi =>
        show J c fun j => (Function.update l i _ j).map Prod.fst
        rw [tasks_same hi]
        exact ih
      | @ended c c' l e s t r i hi hm =>
        have hnew := hends ih (show (l i).map Prod.fst = some t by rw [hi]; rfl) hm
        show J c' fun j => (Function.update l i none j).map Prod.fst
        rw [tasks_update]
        exact hnew
    · exact hrestart _

/-- a task in progress ends as its task does. -/
theorem Loops.Run.leaves {Q : τ → Except ε β → Prop} (hbody : ∀ t, (L.body t).Leaves (Q t))
    {x y : Site S ι κ τ ε β} (h : L.Run x y) (hx : x.Leaves Q) : y.Leaves Q := by
  have updated : ∀ {l : ι → Option (τ × Prog S ε β)} {i : ι} {t : τ} {p' : Prog S ε β},
      (∀ j t p, l j = some (t, p) → p.Leaves (Q t)) → p'.Leaves (Q t) →
      ∀ j t' p, Function.update l i (some (t, p')) j = some (t', p) → p.Leaves (Q t') := by
    intro l i t p' hl hp' j t' p hj
    by_cases hji : j = i
    · subst hji
      rw [Function.update_self] at hj
      cases hj
      exact hp'
    · rw [Function.update_of_ne hji] at hj
      exact hl j t' p hj
  induction h with
  | refl => exact hx
  | tail _ hstep ih =>
    rcases hstep with hstep | rfl
    · cases hstep with
      | moved _ => exact ih
      | began i t _ _ => exact updated ih (hbody t)
      | asked i a hi => exact updated ih (ih i _ _ hi a)
      | acted i hi => exact updated ih (ih i _ _ hi _)
      | ended i hi _ =>
        intro j t p hj
        dsimp only at hj
        by_cases hji : j = i
        · subst hji
          rw [Function.update_self] at hj
          cases hj
        · rw [Function.update_of_ne hji] at hj
          exact ih j t p hj
    · intro i t p hi
      cases hi

/-- **A lane with a task in progress can go on**, if the control takes every end of the task. -/
theorem Loops.goes_on [∀ q, Nonempty (S.Answer q)] {Q : τ → Except ε β → Prop}
    {x : Site S ι κ τ ε β} (hx : x.Leaves Q) {i : ι} {t : τ} (hi : x.tasks i = some t)
    (hends : ∀ r, Q t r → ∃ c', L.ends i t r x.control c') : ∃ y, L.Step x y := by
  obtain ⟨c, l, e, s⟩ := x
  obtain ⟨⟨t', p⟩, hl, rfl⟩ := Option.map_eq_some_iff.mp hi
  cases p with
  | done r =>
    obtain ⟨c', hc⟩ := hends r (hx i t' _ hl)
    exact ⟨_, .ended i hl hc⟩
  | ask q k =>
    obtain ⟨a⟩ := ‹∀ q, Nonempty (S.Answer q)› q
    exact ⟨_, .asked i a hl⟩
  | act f k => exact ⟨_, .acted i hl⟩

/-- a task in progress goes on, with the other lanes as they are. -/
theorem Loops.advances (ans : Nat → (q : S.Ask) → S.Answer q) (n : Nat) {i : ι} {t : τ} {c : κ}
    {h : List (τ × Except ε β)} {l : ι → Option (τ × Prog S ε β)} {p : Prog S ε β} {s : S.State}
    (hi : l i = some (t, p)) :
    L.Works ⟨c, l, h, s⟩ ⟨c, Function.update l i (some (t, (Prog.advance ans n (p, s)).1)), h,
      (Prog.advance ans n (p, s)).2⟩ := by
  have still : ∀ {l : ι → Option (τ × Prog S ε β)} {x}, l i = x → Function.update l i x = l := by
    intro l x hx
    rw [← hx]
    exact Function.update_eq_self i l
  induction n generalizing p s l with
  | zero =>
    rw [Prog.advance, still hi]
    exact .refl
  | succ n ih =>
    have go : ∀ {p' : Prog S ε β} {s' : S.State},
        L.Step ⟨c, l, h, s⟩ ⟨c, Function.update l i (some (t, p')), h, s'⟩ →
        L.Works ⟨c, l, h, s⟩ ⟨c, Function.update l i (some (t, (Prog.advance ans n (p', s')).1)), h,
          (Prog.advance ans n (p', s')).2⟩ := by
      intro p' s' hstep
      have hmore := ih (Function.update_self i (some (t, p')) l) (s := s')
      rw [Function.update_idem] at hmore
      exact .head hstep hmore
    cases p with
    | done r =>
      rw [Prog.advance, still hi]
      exact .refl
    | ask q k => exact go (.asked i (ans n q) hi)
    | act f k => exact go (.acted i hi)

/-- a lane that is idle may do a whole task. -/
theorem Loops.does (ans : Nat → (q : S.Ask) → S.Answer q) (n : Nat) {i : ι} {t : τ} {r : Except ε β}
    {c c' c'' : κ} {h : List (τ × Except ε β)} {l : ι → Option (τ × Prog S ε β)} {s : S.State}
    (hi : l i = none) (hb : L.begins i t c c')
    (hr : (Prog.advance ans n (L.body t, s)).1.answer? = some r) (he : L.ends i t r c' c'') :
    L.Works ⟨c, l, h, s⟩ ⟨c'', l, h ++ [(t, r)], (Prog.advance ans n (L.body t, s)).2⟩ := by
  have hadvances := Loops.advances (L := L) ans n (c := c') (h := h) (s := s)
    (Function.update_self i (some (t, L.body t)) l)
  rw [Function.update_idem, Prog.eq_done hr] at hadvances
  have hended := Loops.Step.ended (L := L) (h := h) (s := (Prog.advance ans n (L.body t, s)).2) i
    (Function.update_self i (some (t, .done r)) l) he
  have hidle : Function.update l i none = l := by
    rw [← hi]
    exact Function.update_eq_self i l
  rw [Function.update_idem, hidle] at hended
  exact .head (.began i t hi hb) (hadvances.tail hended)

end

/-! ## How much is begun -/

section
variable {S : Signature} {ι κ τ ε β : Type} [DecidableEq ι] [Fintype ι] {L : Loops S ι κ τ ε β}

/-- the lanes with a task in progress. -/
def inProgress (lanes : ι → Option (τ × Prog S ε β)) : Finset ι :=
  Finset.univ.filter fun i => (lanes i).isSome = true

omit [DecidableEq ι] in
theorem mem_inProgress {lanes : ι → Option (τ × Prog S ε β)} {i : ι} :
    i ∈ inProgress lanes ↔ (lanes i).isSome = true := by
  unfold inProgress
  rw [Finset.mem_filter]
  exact and_iff_right (Finset.mem_univ i)

theorem inProgress_some {lanes : ι → Option (τ × Prog S ε β)} (i : ι) (x : τ × Prog S ε β) :
    inProgress (Function.update lanes i (some x)) = insert i (inProgress lanes) := by
  ext j
  rw [Finset.mem_insert, mem_inProgress, mem_inProgress]
  by_cases hji : j = i
  · subst hji
    rw [Function.update_self]
    exact ⟨fun _ => .inl rfl, fun _ => rfl⟩
  · rw [Function.update_of_ne hji]
    exact ⟨.inr, fun h => h.resolve_left hji⟩

theorem inProgress_none {lanes : ι → Option (τ × Prog S ε β)} (i : ι) :
    inProgress (Function.update lanes i none) = (inProgress lanes).erase i := by
  ext j
  rw [Finset.mem_erase, mem_inProgress, mem_inProgress]
  by_cases hji : j = i
  · subst hji
    rw [Function.update_self]
    exact ⟨fun h => (Bool.false_ne_true h).elim, fun h => absurd rfl h.1⟩
  · rw [Function.update_of_ne hji]
    exact ⟨fun h => ⟨hji, h⟩, fun h => h.2⟩

/-- the tasks that have begun: those that ended and those in progress. -/
def Site.begun (x : Site S ι κ τ ε β) : Nat := x.ended.length + (inProgress x.lanes).card

/-- **A budget bounds what is begun**: if beginning a task spends of it and nothing adds to it, then
no more tasks begin than it had. -/
theorem Loops.Works.begun_le {I : κ → Prop} (budget : κ → Nat)
    (hmoves : ∀ {c c'}, I c → L.moves c c' → I c' ∧ budget c' ≤ budget c)
    (hbegins : ∀ {i t c c'}, I c → L.begins i t c c' → I c' ∧ budget c' < budget c)
    (hends : ∀ {i t r c c'}, I c → L.ends i t r c c' → I c' ∧ budget c' ≤ budget c)
    {x y : Site S ι κ τ ε β} (h : L.Works x y) (hx : I x.control) :
    I y.control ∧ y.begun + budget y.control ≤ x.begun + budget x.control := by
  induction h with
  | refl => exact ⟨hx, le_rfl⟩
  | tail _ hstep ih =>
    obtain ⟨hI, hle⟩ := ih
    cases hstep with
    | moved hm =>
      obtain ⟨hI', hb⟩ := hmoves hI hm
      exact ⟨hI', (Nat.add_le_add_left hb _).trans hle⟩
    | @began c c' l e s i t hi hm =>
      obtain ⟨hI', hb⟩ := hbegins hI hm
      dsimp only at hb
      refine ⟨hI', le_trans ?_ hle⟩
      have hnew : i ∉ inProgress l := by
        rw [mem_inProgress, hi]
        exact Bool.false_ne_true
      show e.length + (inProgress (Function.update l i _)).card + budget c' ≤
        e.length + (inProgress l).card + budget c
      rw [inProgress_some, Finset.card_insert_of_notMem hnew]
      omega
    | @asked c l e s t q k i a hi =>
      refine ⟨hI, le_trans ?_ hle⟩
      have hold : i ∈ inProgress l := by
        rw [mem_inProgress, hi]
        rfl
      show e.length + (inProgress (Function.update l i _)).card + budget c ≤
        e.length + (inProgress l).card + budget c
      rw [inProgress_some, Finset.insert_eq_of_mem hold]
    | @acted c l e s t f k i hi =>
      refine ⟨hI, le_trans ?_ hle⟩
      have hold : i ∈ inProgress l := by
        rw [mem_inProgress, hi]
        rfl
      show e.length + (inProgress (Function.update l i _)).card + budget c ≤
        e.length + (inProgress l).card + budget c
      rw [inProgress_some, Finset.insert_eq_of_mem hold]
    | @ended c c' l e s t r i hi hm =>
      obtain ⟨hI', hb⟩ := hends hI hm
      dsimp only at hb
      refine ⟨hI', le_trans ?_ hle⟩
      have hold : i ∈ inProgress l := by
        rw [mem_inProgress, hi]
        rfl
      have hpos := Finset.card_pos.mpr ⟨i, hold⟩
      show (e ++ [(t, r)]).length + (inProgress (Function.update l i none)).card + budget c' ≤
        e.length + (inProgress l).card + budget c
      rw [inProgress_none, Finset.card_erase_of_mem hold, List.length_append, List.length_singleton]
      omega

end

/-! ## Loops that come to rest -/

section
variable {S : Signature} {ι κ τ ε β : Type}

/-- what is left of a program after one of its steps. -/
inductive Prog.Left : Prog S ε β → Prog S ε β → Prop where
  | asked {q k} (a : S.Answer q) : Left (k a) (.ask q k)
  | acted {f k} (s : S.State) : Left (k s) (.act f k)

theorem left_wellFounded : WellFounded (Prog.Left : Prog S ε β → Prog S ε β → Prop) := by
  constructor
  intro p
  induction p with
  | done r => exact ⟨_, fun p h => by cases h⟩
  | ask q k ih => exact ⟨_, fun p h => by cases h with | asked a => exact ih a⟩
  | act f k ih => exact ⟨_, fun p h => by cases h with | acted s => exact ih s⟩

/-- how much is left of a task in progress. -/
noncomputable def depth : Option (τ × Prog S ε β) → Ordinal.{0}
  | none => 0
  | some (_, p) => (left_wellFounded.apply p).rank

variable [DecidableEq ι] {L : Loops S ι κ τ ε β}

/-- a step of one lane leaves less in it, and the others as they are. -/
theorem depth_lt {lanes : ι → Option (τ × Prog S ε β)} {i : ι} {t : τ} {p p' : Prog S ε β}
    (hi : lanes i = some (t, p)) (h : p'.Left p) :
    (fun j => depth (Function.update lanes i (some (t, p')) j)) < fun j => depth (lanes j) := by
  have hlt : depth (some (t, p')) < depth (some (t, p)) :=
    (left_wellFounded.apply p).rank_lt_of_rel h
  refine Pi.lt_def.mpr ⟨fun j => ?_, i, ?_⟩
  · by_cases hji : j = i
    · subst hji
      dsimp only
      rw [Function.update_self, hi]
      exact hlt.le
    · dsimp only
      rw [Function.update_of_ne hji]
  · rw [Function.update_self, hi]
    exact hlt

/-- **Loops whose control only runs down come to rest**: no run goes on forever, however their
steps follow each other and whatever they are answered. -/
theorem Loops.rests [Finite ι] {I : κ → Prop} (rank : κ → Nat)
    (hmoves : ∀ {c c'}, I c → L.moves c c' → I c' ∧ rank c' < rank c)
    (hbegins : ∀ {i t c c'}, I c → L.begins i t c c' → I c' ∧ rank c' < rank c)
    (hends : ∀ {i t r c c'}, I c → L.ends i t r c c' → I c' ∧ rank c' < rank c)
    (run : Nat → Site S ι κ τ ε β) (hI : I (run 0).control) :
    ∃ n, ¬ L.Step (run n) (run (n + 1)) := by
  let measure : Site S ι κ τ ε β → Nat ×ₗ (ι → Ordinal.{0}) := fun x =>
    toLex (rank x.control, fun i => depth (x.lanes i))
  have hstep : ∀ {x y : Site S ι κ τ ε β}, I x.control → L.Step x y →
      I y.control ∧ measure y < measure x := by
    intro x y hI h
    cases h with
    | moved hm =>
      obtain ⟨hI', hlt⟩ := hmoves hI hm
      exact ⟨hI', Prod.Lex.toLex_lt_toLex.mpr (.inl hlt)⟩
    | began _ _ _ hm =>
      obtain ⟨hI', hlt⟩ := hbegins hI hm
      exact ⟨hI', Prod.Lex.toLex_lt_toLex.mpr (.inl hlt)⟩
    | asked i a hi => exact ⟨hI, Prod.Lex.toLex_lt_toLex.mpr (.inr ⟨rfl, depth_lt hi (.asked a)⟩)⟩
    | acted i hi => exact ⟨hI, Prod.Lex.toLex_lt_toLex.mpr (.inr ⟨rfl, depth_lt hi (.acted _)⟩)⟩
    | ended _ _ hm =>
      obtain ⟨hI', hlt⟩ := hends hI hm
      exact ⟨hI', Prod.Lex.toLex_lt_toLex.mpr (.inl hlt)⟩
  have hwf : WellFounded fun x y : Site S ι κ τ ε β => measure x < measure y :=
    InvImage.wf measure wellFounded_lt
  -- the induction is on the first site of the run.
  have general : ∀ x : Site S ι κ τ ε β, ∀ run : Nat → Site S ι κ τ ε β, run 0 = x → I x.control →
      ∃ n, ¬ L.Step (run n) (run (n + 1)) := by
    intro x
    induction x using hwf.induction with
    | _ x ih =>
      intro run h0 hI
      by_cases hs : L.Step (run 0) (run 1)
      · rw [h0] at hs
        obtain ⟨hI', hlt⟩ := hstep hI hs
        obtain ⟨n, hn⟩ := ih (run 1) hlt (fun n => run (n + 1)) rfl hI'
        exact ⟨n + 1, hn⟩
      · exact ⟨0, hs⟩
  exact general (run 0) run rfl hI

end

end ChannelDigests.Lib
