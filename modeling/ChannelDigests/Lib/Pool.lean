import ChannelDigests.Lib.Program

/-!
# Pools of programs

A system runs any number of tasks side by side on one state.  A thread may be started whenever the
system lets it, its questions are answered as the system says, and it may be dropped between any
two steps (a crash).

* `System`        tasks, their programs, which task may start beside which threads;
* `Pool.Move`     one move of one thread;
* `Reach`         pools reached by any number of moves;
* `Turn`, `Pool.play`   schedules, and the pool that one leads to;
* `Discipline`    a rely and a guarantee for each task that fit together, with an invariant;
* `Discipline.Sound`  what a discipline keeps: the invariant, and each thread is safe;
* `Discipline.sound_reach`  a sound pool stays sound, whatever the order of the moves;
* `Discipline.Sound.follow`  a thread that is safe for more than its guarantee stays so;
* `Discipline.sound_exclusive`  a token that is spent for an answer is spent at most once;
* `Discipline.strengthen`  a discipline with one more invariant.
-/

set_option linter.unusedVariables false

namespace ChannelDigests.Lib

/-- one task in progress; `live` is false once it is dropped. -/
structure Thread (S : Signature) (τ ε α : Type) where
  task : τ
  rest : Prog S ε α
  live : Bool

namespace Thread
variable {S : Signature} {τ ε α : Type}

/-- the thread may still take a step. -/
def Running (t : Thread S τ ε α) : Prop := t.live = true ∧ t.rest.answer? = none

/-- the thread ended with the answer `r`. -/
def Answered (t : Thread S τ ε α) (r : Except ε α) : Prop := t.live = true ∧ t.rest = .done r

/-- the thread ended with an answer in `W`. -/
def Won (W : τ → Except ε α → Prop) (t : Thread S τ ε α) : Prop :=
  ∃ r, t.Answered r ∧ W t.task r

end Thread

/-- tasks over one state, with what may start and what the environment may answer. -/
structure System (S : Signature) (τ ε α : Type) where
  body : τ → Prog S ε α
  starts : List (Thread S τ ε α) → τ → Prop
  answers : τ → (q : S.Ask) → S.Answer q → Prop

/-- the threads of a system and the state they share. -/
structure Pool (S : Signature) (τ ε α : Type) where
  threads : List (Thread S τ ε α)
  state : S.State

namespace Pool
variable {S : Signature} {τ ε α : Type} (Y : System S τ ε α)

/-- one move: a task starts, a question is answered, a thread takes an atomic step, or a thread is
dropped. -/
inductive Move : Pool S τ ε α → Pool S τ ε α → Prop where
  | spawned {ts s t} : Y.starts ts t → Move ⟨ts, s⟩ ⟨ts ++ [⟨t, Y.body t, true⟩], s⟩
  | asked {ts s t q k a} (i : Nat) : ts[i]? = some ⟨t, .ask q k, true⟩ → Y.answers t q a →
      Move ⟨ts, s⟩ ⟨ts.set i ⟨t, k a, true⟩, s⟩
  | acted {ts s t f k} (i : Nat) : ts[i]? = some ⟨t, .act f k, true⟩ →
      Move ⟨ts, s⟩ ⟨ts.set i ⟨t, k s, true⟩, f s⟩
  | dropped {ts s t p} (i : Nat) : ts[i]? = some ⟨t, p, true⟩ → p.answer? = none →
      Move ⟨ts, s⟩ ⟨ts.set i ⟨t, p, false⟩, s⟩

/-- pools reached from `P` by any number of moves. -/
def Reach : Pool S τ ε α → Pool S τ ε α → Prop := Relation.ReflTransGen (Move Y)

end Pool

/-! ## Schedules -/

/-- one turn: a task starts, or the thread `i` takes up to `n` steps with the given answers. -/
inductive Turn (S : Signature) (τ : Type) where
  | start (t : τ)
  | run (i n : Nat) (ans : Nat → (q : S.Ask) → S.Answer q)

namespace Pool
variable {S : Signature} {τ ε α : Type} {Y : System S τ ε α}

/-- the pool after one turn. -/
def turn (Y : System S τ ε α) (P : Pool S τ ε α) : Turn S τ → Pool S τ ε α
  | .start t => ⟨P.threads ++ [⟨t, Y.body t, true⟩], P.state⟩
  | .run i n ans =>
    match P.threads[i]? with
    | some ⟨t, p, true⟩ =>
      ⟨P.threads.set i ⟨t, (Prog.advance ans n (p, P.state)).1, true⟩,
        (Prog.advance ans n (p, P.state)).2⟩
    | _ => P

/-- the pool after a schedule. -/
def play (Y : System S τ ε α) (turns : List (Turn S τ)) (P : Pool S τ ε α) : Pool S τ ε α :=
  turns.foldl (turn Y) P

/-- the system allows the turn in this pool. -/
def Allowed (Y : System S τ ε α) (P : Pool S τ ε α) : Turn S τ → Prop
  | .start t => Y.starts P.threads t
  | .run i _ ans => ∀ u, P.threads[i]? = some u → ∀ k q, Y.answers u.task q (ans k q)

theorem advance_reach {t : τ} {ans : Nat → (q : S.Ask) → S.Answer q}
    (ha : ∀ k q, Y.answers t q (ans k q)) (n i : Nat) {ts : List (Thread S τ ε α)}
    {p : Prog S ε α} {s : S.State} (hi : ts[i]? = some ⟨t, p, true⟩) :
    Reach Y ⟨ts, s⟩ ⟨ts.set i ⟨t, (Prog.advance ans n (p, s)).1, true⟩,
      (Prog.advance ans n (p, s)).2⟩ := by
  have still : ∀ {ts : List (Thread S τ ε α)} {u : Thread S τ ε α}, ts[i]? = some u →
      ts.set i u = ts := fun h => by
    obtain ⟨hlt, he⟩ := List.getElem?_eq_some_iff.mp h
    rw [← he]
    exact List.set_getElem_self hlt
  induction n generalizing p s ts with
  | zero =>
    rw [Prog.advance, still hi]
    exact .refl
  | succ n ih =>
    have hlt := (List.getElem?_eq_some_iff.mp hi).1
    have go : ∀ {p' : Prog S ε α} {s' : S.State},
        Move Y ⟨ts, s⟩ ⟨ts.set i ⟨t, p', true⟩, s'⟩ →
        Reach Y ⟨ts, s⟩ ⟨ts.set i ⟨t, (Prog.advance ans n (p', s')).1, true⟩,
          (Prog.advance ans n (p', s')).2⟩ := by
      intro p' s' hm
      have := ih (List.getElem?_set_self (a := ⟨t, p', true⟩) hlt) (s := s')
      rw [List.set_set] at this
      exact .head hm this
    cases p with
    | done r =>
      rw [Prog.advance, still hi]
      exact .refl
    | ask q k => exact go (.asked i hi (ha n q))
    | act f k => exact go (.acted i hi)

/-- **An allowed turn is a number of moves.** -/
theorem turn_reach {P : Pool S τ ε α} {x : Turn S τ} (h : Allowed Y P x) : Reach Y P (turn Y P x) := by
  cases x with
  | start t => exact .single (.spawned h)
  | run i n ans =>
    simp only [turn]
    split
    · next t p hi => exact advance_reach (h _ hi) n i hi
    · exact .refl

/-- every turn of a schedule is allowed when its turn comes. -/
def AllAllowed (Y : System S τ ε α) : Pool S τ ε α → List (Turn S τ) → Prop
  | _, [] => True
  | P, x :: xs => Allowed Y P x ∧ AllAllowed Y (turn Y P x) xs

theorem play_reach {turns : List (Turn S τ)} {P : Pool S τ ε α} (h : AllAllowed Y P turns) :
    Reach Y P (play Y turns P) := by
  induction turns generalizing P with
  | nil => exact .refl
  | cons x xs ih => exact (turn_reach h.1).trans (ih h.2)

end Pool

open Pool

/-- what a task's program may be asked to be safe under. -/
def System.env {S : Signature} {τ ε α : Type} (Y : System S τ ε α) (t : τ) :
    Unit → (q : S.Ask) → S.Answer q → Unit → Prop :=
  fun _ q a _ => Y.answers t q a

/-- a rely and a guarantee for each task, which fit together over the invariant `Inv`. -/
structure Discipline {S : Signature} {τ ε α : Type} (Y : System S τ ε α) where
  Inv : S.State → Prop
  rely : τ → S.State → S.State → Prop
  guar : τ → S.State → S.State → Option (Except ε α) → Prop
  post : τ → Except ε α → S.State → Prop
  /-- the two tasks may run at the same time. -/
  Beside : τ → τ → Prop
  beside_symm : ∀ {t u}, Beside t u → Beside u t
  beside_starts : ∀ {ts t}, Y.starts ts t → ∀ u ∈ ts, u.Running → Beside u.task t
  rely_refl : ∀ t s, rely t s s
  rely_trans : ∀ {t a b c}, rely t a b → rely t b c → rely t a c
  body_safe : ∀ {ts t s}, Y.starts ts t → Inv s →
    (Y.body t).Safe (rely t) (Y.env t) (guar t) (fun r s _ => post t r s) s ()
  guar_inv : ∀ {t s s' o}, Inv s → guar t s s' o → Inv s'
  guar_rely : ∀ {t u s s' o}, Beside t u → Inv s → guar t s s' o → rely u s s'
  post_stable : ∀ {t u s s' o r}, Inv s → guar t s s' o → post u r s → post u r s'

namespace Discipline

variable {S : Signature} {τ ε α : Type} {Y : System S τ ε α} (D : Discipline Y)

/-- the thread is safe from the state `s`. -/
def ThreadSafe (s : S.State) (u : Thread S τ ε α) : Prop :=
  u.live = true →
    u.rest.Safe (D.rely u.task) (Y.env u.task) (D.guar u.task) (fun r s _ => D.post u.task r s) s ()

/-- what the discipline keeps of a pool. -/
structure Sound (P : Pool S τ ε α) : Prop where
  inv : D.Inv P.state
  safe : ∀ u ∈ P.threads, D.ThreadSafe P.state u
  beside : ∀ (i j : Nat) (u v : Thread S τ ε α), i ≠ j → P.threads[i]? = some u →
    P.threads[j]? = some v → u.Running → v.Running → D.Beside u.task v.task

variable {D}

/-- a pool without threads is sound in every state of the invariant. -/
theorem sound_empty {s : S.State} (h : D.Inv s) : D.Sound ⟨[], s⟩ where
  inv := h
  safe u hu := absurd hu (by simp)
  beside i j u v _ hu := by simp at hu

theorem Sound.thread {P : Pool S τ ε α} (h : D.Sound P) {i : Nat} {u : Thread S τ ε α}
    (hu : P.threads[i]? = some u) : D.ThreadSafe P.state u :=
  h.safe u (List.mem_of_getElem? hu)

/-- an ended thread satisfies its post-condition. -/
theorem Sound.post {P : Pool S τ ε α} (h : D.Sound P) {u : Thread S τ ε α} (hu : u ∈ P.threads)
    {r : Except ε α} (hr : u.Answered r) : D.post u.task r P.state := by
  obtain ⟨hl, hr⟩ := hr
  simpa only [hr, safe_done] using h.safe u hu hl

/-- replacing the rest of one running thread keeps the pool sound, if the others are not disturbed. -/
theorem Sound.set {P : Pool S τ ε α} (h : D.Sound P) {i : Nat} {t : τ} {p p' : Prog S ε α}
    {b : Bool} {s' : S.State} (hi : P.threads[i]? = some ⟨t, p, true⟩) (hp : p.answer? = none)
    (hinv : D.Inv s') (hsafe : D.ThreadSafe s' ⟨t, p', b⟩)
    (hother : ∀ u, u.Running → D.Beside t u.task → D.ThreadSafe P.state u → D.ThreadSafe s' u)
    (hended : ∀ (u : Thread S τ ε α) r, u.rest.answer? = some r → D.ThreadSafe P.state u →
      D.ThreadSafe s' u) :
    D.Sound ⟨P.threads.set i ⟨t, p', b⟩, s'⟩ := by
  have hlt : i < P.threads.length := (List.getElem?_eq_some_iff.mp hi).1
  have hrun : (⟨t, p, true⟩ : Thread S τ ε α).Running := ⟨rfl, hp⟩
  refine ⟨hinv, fun u hu => ?_, fun j k u v hjk hu hv hur hvr => ?_⟩
  · obtain ⟨j, hj⟩ := List.mem_iff_getElem?.mp hu
    by_cases hji : i = j
    · subst hji
      simp only [List.getElem?_set_self hlt, Option.some.injEq] at hj
      exact hj ▸ hsafe
    · simp only [List.getElem?_set_ne hji] at hj
      intro hl
      rcases ho : u.rest.answer? with _ | r
      · exact hother u ⟨hl, ho⟩ (h.beside i j _ u hji hi hj hrun ⟨hl, ho⟩) (h.thread hj) hl
      · exact hended u r ho (h.thread hj) hl
  · have old : ∀ {m w}, ¬ i = m → (P.threads.set i ⟨t, p', b⟩)[m]? = some w →
        P.threads[m]? = some w := fun hm hw => by rwa [List.getElem?_set_ne hm] at hw
    by_cases hij : i = j
    · subst hij
      simp only [List.getElem?_set_self hlt, Option.some.injEq] at hu
      subst hu
      exact h.beside i k ⟨t, p, true⟩ v hjk hi (old hjk hv) hrun hvr
    · by_cases hik : i = k
      · subst hik
        simp only [List.getElem?_set_self hlt, Option.some.injEq] at hv
        subst hv
        exact h.beside j i u ⟨t, p, true⟩ hjk (old hij hu) hi hur hrun
      · exact h.beside j k u v hjk (old hij hu) (old hik hv) hur hvr

/-- the guarantee of a thread about to take an atomic step. -/
theorem Sound.guar {P : Pool S τ ε α} (h : D.Sound P) {i : Nat} {t : τ}
    {f : S.State → S.State} {k : S.State → Prog S ε α}
    (hi : P.threads[i]? = some ⟨t, .act f k, true⟩) :
    D.guar t P.state (f P.state) (k P.state).answer? :=
  (h.thread hi rfl _ (D.rely_refl _ _)).1

/-- **One move keeps a pool sound.** -/
theorem Sound.move {P P' : Pool S τ ε α} (h : D.Sound P) (hm : Move Y P P') : D.Sound P' := by
  cases hm with
  | @spawned ts s t ht =>
    refine ⟨h.inv, fun u hu => ?_, fun i j u v hij hu hv hur hvr => ?_⟩
    · rcases List.mem_append.mp hu with hu | hu
      · exact h.safe u hu
      · obtain rfl := List.mem_singleton.mp hu
        exact fun _ => D.body_safe ht h.inv
    · have hnew : ∀ {m w}, (ts ++ [⟨t, Y.body t, true⟩])[m]? = some w →
          ts[m]? = some w ∨ (m = ts.length ∧ w = ⟨t, Y.body t, true⟩) := by
        intro m w hw
        rcases Nat.lt_trichotomy m ts.length with hm | hm | hm
        · exact .inl (by rwa [List.getElem?_append_left hm] at hw)
        · subst hm
          exact .inr ⟨rfl, by simpa using hw.symm⟩
        · rw [List.getElem?_eq_none (by simp; omega)] at hw
          cases hw
      rcases hnew hu with hu | ⟨rfl, rfl⟩ <;> rcases hnew hv with hv | ⟨rfl, rfl⟩
      · exact h.beside i j u v hij hu hv hur hvr
      · exact D.beside_starts ht u (List.mem_of_getElem? hu) hur
      · exact D.beside_symm (D.beside_starts ht v (List.mem_of_getElem? hv) hvr)
      · exact absurd rfl hij
  | @asked ts s t q k a i hi ha =>
    exact h.set hi rfl h.inv (fun _ => h.thread hi rfl _ (D.rely_refl _ _) a () ha)
      (fun _ _ _ hu => hu) (fun _ _ _ hu => hu)
  | @acted ts s t f k i hi =>
    have hg := h.guar hi
    refine h.set hi rfl (D.guar_inv h.inv hg) (fun _ => (h.thread hi rfl _ (D.rely_refl _ _)).2)
      (fun u hu hb hs hl => (hs hl).other D.rely_trans hu.2 (D.guar_rely hb h.inv hg))
      (fun u r hr hs hl => ?_)
    have hd := Prog.eq_done hr
    have := hs hl
    rw [hd] at this ⊢
    exact D.post_stable h.inv hg this
  | @dropped ts s t p i hi hp =>
    exact h.set hi hp h.inv (fun hl => absurd hl (by simp)) (fun _ _ _ hu => hu)
      (fun _ _ _ hu => hu)

/-- **Any number of moves keeps a pool sound.** -/
theorem sound_reach {P P' : Pool S τ ε α} (h : D.Sound P) (hr : Reach Y P P') : D.Sound P' := by
  induction hr with
  | refl => exact h
  | tail _ hm ih => exact ih.move hm

/-- a move of a sound pool changes the state by the guarantee of one of the tasks, or not at all. -/
theorem Sound.change {P P' : Pool S τ ε α} (h : D.Sound P) (hm : Move Y P P') :
    P'.state = P.state ∨ ∃ t o, D.guar t P.state P'.state o := by
  cases hm with
  | spawned _ => exact .inl rfl
  | asked _ _ _ => exact .inl rfl
  | acted i hi => exact .inr ⟨_, _, h.guar hi⟩
  | dropped _ _ _ => exact .inl rfl

/-! ## Following one thread -/

/-- at most one thread gave an answer in `W`, and the token is gone when one did. -/
structure Exclusive (token : S.State → Prop) (W : τ → Except ε α → Prop) (P : Pool S τ ε α) :
    Prop where
  pending : ∀ u ∈ P.threads, ¬ u.Won W → u.rest.Decides (W u.task)
  spent : ∀ u ∈ P.threads, u.Won W → ¬ token P.state
  single : ∀ {i j : Nat} {u v : Thread S τ ε α}, P.threads[i]? = some u →
    P.threads[j]? = some v → u.Won W → v.Won W → i = j

/-- replacing one thread that had not ended keeps the pool exclusive. -/
theorem Exclusive.set {token : S.State → Prop} {W : τ → Except ε α → Prop} {P : Pool S τ ε α}
    (h : Exclusive token W P) {j : Nat} {t : τ} {p p' : Prog S ε α} {b : Bool} {s' : S.State}
    (hj : P.threads[j]? = some ⟨t, p, true⟩) (hp : p.answer? = none)
    (hd : ¬ (⟨t, p', b⟩ : Thread S τ ε α).Won W → p'.Decides (W t))
    (htoken : token s' → token P.state)
    (hwon : (⟨t, p', b⟩ : Thread S τ ε α).Won W → token P.state ∧ ¬ token s') :
    Exclusive token W ⟨P.threads.set j ⟨t, p', b⟩, s'⟩ := by
  have hlt := (List.getElem?_eq_some_iff.mp hj).1
  have old : ∀ {i u}, (P.threads.set j ⟨t, p', b⟩)[i]? = some u →
      (j = i ∧ u = ⟨t, p', b⟩) ∨ (j ≠ i ∧ P.threads[i]? = some u) := by
    intro i u hu
    by_cases hij : j = i
    · subst hij
      rw [List.getElem?_set_self hlt] at hu
      exact .inl ⟨rfl, (Option.some.inj hu).symm⟩
    · rw [List.getElem?_set_ne hij] at hu
      exact .inr ⟨hij, hu⟩
  refine ⟨fun u hu hw => ?_, fun u hu hw => ?_, fun {i k u v} hu hv hwu hwv => ?_⟩
  · obtain ⟨i, hi⟩ := List.mem_iff_getElem?.mp hu
    rcases old hi with ⟨-, rfl⟩ | ⟨-, hi⟩
    · exact hd hw
    · exact h.pending u (List.mem_of_getElem? hi) hw
  · obtain ⟨i, hi⟩ := List.mem_iff_getElem?.mp hu
    rcases old hi with ⟨-, rfl⟩ | ⟨-, hi⟩
    · exact (hwon hw).2
    · exact fun ht => h.spent u (List.mem_of_getElem? hi) hw (htoken ht)
  · rcases old hu with ⟨rfl, rfl⟩ | ⟨-, hu⟩ <;> rcases old hv with ⟨rfl, rfl⟩ | ⟨-, hv⟩
    · rfl
    · exact absurd (hwon hwu).1 (h.spent v (List.mem_of_getElem? hv) hwv)
    · exact absurd (hwon hwv).1 (h.spent u (List.mem_of_getElem? hu) hwu)
    · exact h.single hu hv hwu hwv

/-- **A token is spent at most once.**  If an answer in `W` is given only by the step that spends
the token, and nothing brings the token back, then at most one thread gives such an answer, and
none while the token is there. -/
theorem sound_exclusive {P P' : Pool S τ ε α} (h : D.Sound P) (hr : Reach Y P P')
    {token : S.State → Prop} {W : τ → Except ε α → Prop}
    (hbody : ∀ t, (Y.body t).Decides (W t))
    (hkeep : ∀ {t s s' o}, D.Inv s → D.guar t s s' o → token s' → token s)
    (hspend : ∀ {t s s' r}, D.Inv s → D.guar t s s' (some r) → W t r → token s ∧ ¬ token s')
    (hP : Exclusive token W P) : Exclusive token W P' := by
  induction hr with
  | refl => exact hP
  | @tail P₁ P₂ hr hm ih =>
    have hsound := sound_reach h hr
    cases hm with
    | @spawned ts s t ht =>
      have hnew : ¬ (⟨t, Y.body t, true⟩ : Thread S τ ε α).Won W := by
        rintro ⟨r, ⟨-, hdone⟩, hW⟩
        have := hbody t
        rw [show Y.body t = .done r from hdone] at this
        exact this hW
      have old : ∀ {i : Nat} {u : Thread S τ ε α}, (ts ++ [⟨t, Y.body t, true⟩])[i]? = some u →
          u.Won W → ts[i]? = some u := by
        intro i u hu hw
        rcases Nat.lt_or_ge i ts.length with hi | hi
        · rwa [List.getElem?_append_left hi] at hu
        · rw [List.getElem?_append_right hi] at hu
          exact absurd (List.mem_singleton.mp (List.mem_of_getElem? hu) ▸ hw) hnew
      refine ⟨fun u hu hw => ?_, fun u hu hw => ?_, fun hu hv hwu hwv =>
        ih.single (old hu hwu) (old hv hwv) hwu hwv⟩
      · rcases List.mem_append.mp hu with hu | hu
        · exact ih.pending u hu hw
        · obtain rfl := List.mem_singleton.mp hu
          exact hbody t
      · obtain ⟨i, hi⟩ := List.mem_iff_getElem?.mp hu
        exact ih.spent u (List.mem_of_getElem? (old hi hw)) hw
    | @asked ts s t q k a j hj ha =>
      have hask : (Prog.ask q k).Decides (W t) :=
        ih.pending _ (List.mem_of_getElem? hj) fun ⟨r, ⟨_, hr⟩, _⟩ => by cases hr
      refine ih.set hj rfl (fun _ => hask a) id fun ⟨r, ⟨_, hdone⟩, hW⟩ => ?_
      have := hask a
      rw [show k a = .done r from hdone] at this
      exact absurd hW this
    | @acted ts s t f k j hj =>
      have hact : (Prog.act f k).Decides (W t) :=
        ih.pending _ (List.mem_of_getElem? hj) fun ⟨r, ⟨_, hr⟩, _⟩ => by cases hr
      have hg := hsound.guar hj
      refine ih.set hj rfl (fun hw => ?_) (hkeep hsound.inv hg) fun ⟨r, ⟨_, hdone⟩, hW⟩ => ?_
      · rcases hact s with ⟨r, hr⟩ | hd
        · rw [hr]
          exact fun hW => hw ⟨r, ⟨rfl, hr⟩, hW⟩
        · exact hd
      · rw [show k s = .done r from hdone] at hg
        exact hspend hsound.inv hg hW
    | @dropped ts s t p j hj hp =>
      have running : ¬ (⟨t, p, true⟩ : Thread S τ ε α).Won W := by
        rintro ⟨r, ⟨-, hdone⟩, -⟩
        rw [show p = .done r from hdone] at hp
        cases hp
      refine ih.set hj hp (fun _ => ih.pending _ (List.mem_of_getElem? hj) running) id ?_
      rintro ⟨_, ⟨hlive, -⟩, -⟩
      cases hlive

/-! ## One more invariant -/

/-- steps of the preorder `K` keep the invariant `I`. -/
structure Upkeep {σ : Type} (I : σ → Prop) (K : σ → σ → Prop) : Prop where
  refl : ∀ s, K s s
  trans : ∀ {a b c}, K a b → K b c → K a c
  keeps : ∀ {s s'}, K s s' → I s → I s'

/-- the discipline with one more invariant, which each task keeps while the others do. -/
def strengthen (D : Discipline Y) {I : S.State → Prop} {K : S.State → S.State → Prop}
    (u : Upkeep I K)
    (hbody : ∀ {ts t s}, Y.starts ts t → D.Inv s → I s →
      (Y.body t).Safe (fun s s' => D.rely t s s' ∧ K s s') (Y.env t)
        (fun s s' o => D.guar t s s' o → K s s') (fun _ _ _ => True) s ()) : Discipline Y where
  Inv s := D.Inv s ∧ I s
  rely t s s' := D.rely t s s' ∧ K s s'
  guar t s s' o := D.guar t s s' o ∧ K s s'
  post := D.post
  Beside := D.Beside
  beside_symm := D.beside_symm
  beside_starts := D.beside_starts
  rely_refl t s := ⟨D.rely_refl t s, u.refl s⟩
  rely_trans h h' := ⟨D.rely_trans h.1 h'.1, u.trans h.2 h'.2⟩
  body_safe {_ t _} hs hI := by
    have hrely : ∀ s s', D.rely t s s' ∧ K s s' → D.rely t s s' := fun _ _ h => h.1
    have hold := (D.body_safe hs hI.1).mono hrely
      (fun _ _ _ _ h => h) (fun _ _ _ h => h) fun _ _ _ h => h
    exact (hold.and (hbody hs hI.1 hI.2)).mono (fun _ _ h => h) (fun _ _ _ _ h => h)
      (fun _ _ _ h => ⟨h.1, h.2 h.1⟩) fun _ _ _ h => h.1
  guar_inv hI h := ⟨D.guar_inv hI.1 h.1, u.keeps h.2 hI.2⟩
  guar_rely hb hI h := ⟨D.guar_rely hb hI.1 h.1, h.2⟩
  post_stable hI h hp := D.post_stable hI.1 h.1 hp

end Discipline

end ChannelDigests.Lib
