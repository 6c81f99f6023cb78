import ChannelDigests.Lib.Transaction
import Mathlib.Logic.Relation

/-!
# Programs over a shared state

A program is a tree of questions to its environment and of atomic steps on a shared state.
Between two steps of one program other parties may change the state.

* `Prog S ε α`       a program with errors `ε` and value `α` over the signature `S`;
* `Prog.next`        run a second program on the outcome of the first, error or not;
* `Prog.transact`    a transaction as one atomic step; `Prog.query` a single read;
* `Step`, `Exec`     the small-step semantics with interference `R` and environment `env`;
* `Prog.Safe`        the precondition of a program under interference: every atomic step satisfies
                     the guarantee `G`, and `Q` holds when the program ends;
* `Prog.Safe.exec`   the precondition is kept by every execution;
* `Prog.Safe.runs`   a safe program that runs to its end ends in `Q`;
* `Prog.advance`     some steps of a program with given answers; `advance_exec` is the execution;
* `Prog.travel`      the same in an environment that moves too; `travel_exec` is the execution.

The environment answers questions and moves from state to state as it does: `env e q a e'`.  A
guarantee sees the state before and after a step and, when the step is the last one, the answer.
-/

set_option linter.unusedVariables false

namespace ChannelDigests.Lib

/-- what a program may ask, with the answers, and the state it shares. -/
structure Signature where
  State : Type
  Ask : Type
  Answer : Ask → Type

/-- a program over the signature `S` -/
inductive Prog (S : Signature) (ε α : Type) where
  | done (r : Except ε α)
  | ask (q : S.Ask) (k : S.Answer q → Prog S ε α)
  | act (f : S.State → S.State) (k : S.State → Prog S ε α)

namespace Prog

variable {S : Signature} {ε ε' α β : Type}

/-- run `k` on the outcome of `p`. -/
def next : Prog S ε α → (Except ε α → Prog S ε' β) → Prog S ε' β
  | .done r, k => k r
  | .ask q p, k => .ask q fun a => (p a).next k
  | .act f p, k => .act f fun s => (p s).next k

/-- run `k` on the value of `p`; an error of `p` ends the program. -/
def bind (p : Prog S ε α) (k : α → Prog S ε β) : Prog S ε β :=
  p.next fun
    | .ok a => k a
    | .error e => .done (.error e)

instance : Monad (Prog S ε) where
  pure a := .done (.ok a)
  bind := Prog.bind

/-- end the program with an error. -/
def fail (e : ε) : Prog S ε α := .done (.error e)

/-- go on with `x`, or end with the error of `x`. -/
def lift (x : Except ε α) : Prog S ε α := .done x

/-- the outcome of `p` as a value: errors of `p` are caught. -/
def outcome (p : Prog S ε α) : Prog S ε' (Except ε α) := p.next fun r => .done (.ok r)

/-- `p` with its errors mapped. -/
def mapError (h : ε → ε') (p : Prog S ε α) : Prog S ε' α := p.next fun r => .done (r.mapError h)

/-- one question. -/
def question (q : S.Ask) : Prog S ε (S.Answer q) := .ask q fun a => .done (.ok a)

/-- a transaction as one atomic step. -/
def transact (fuse : Option Nat) (t : Tx S.State ε (Fate α)) : Prog S ε α :=
  .act (fun s => (settle t fuse s).2) fun s => .done (settle t fuse s).1

/-- the answer of a program that has ended -/
def answer? : Prog S ε α → Option (Except ε α)
  | .done r => some r
  | _ => none

theorem eq_done {p : Prog S ε α} {r : Except ε α} (h : p.answer? = some r) : p = .done r := by
  cases p <;> simp [answer?] at h
  rw [h]

theorem answer?_next (p : Prog S ε α) (k : Except ε α → Prog S ε' β) :
    (p.next k).answer? = p.answer?.bind fun r => (k r).answer? := by
  cases p <;> rfl

theorem next_next {ε'' γ : Type} (p : Prog S ε α) (k : Except ε α → Prog S ε' β)
    (k' : Except ε' β → Prog S ε'' γ) : (p.next k).next k' = p.next fun r => (k r).next k' := by
  induction p with
  | done r => rfl
  | ask q p ih =>
    show Prog.ask q _ = Prog.ask q _
    congr 1
    funext a
    exact ih a
  | act f p ih =>
    show Prog.act f _ = Prog.act f _
    congr 1
    funext s
    exact ih s

/-- an answer in `W` is given by an atomic step only, neither at once nor right after a
question. -/
def Decides (W : Except ε α → Prop) : Prog S ε α → Prop
  | .done r => ¬ W r
  | .ask _ k => ∀ a, (k a).Decides W
  | .act _ k => ∀ s, (∃ r, k s = .done r) ∨ (k s).Decides W

theorem Decides.mono {W W' : Except ε α → Prop} {p : Prog S ε α} (h : p.Decides W)
    (hW : ∀ r, W' r → W r) : p.Decides W' := by
  induction p with
  | done r => exact fun hr => h (hW r hr)
  | ask q k ih => exact fun a => ih a (h a)
  | act f k ih => exact fun s => (h s).imp_right (ih s)

/-- an answer that is never given is not given too early. -/
theorem decides_never (p : Prog S ε α) : p.Decides fun _ => False := by
  induction p with
  | done r => exact id
  | ask q k ih => exact ih
  | act f k ih => exact fun s => .inr (ih s)

/-- a program whose outcome is mapped answers when it does. -/
theorem decides_next {W : Except ε' β → Prop} (p : Prog S ε α) {k : Except ε α → Prog S ε' β}
    (hk : ∀ r, ∃ r', k r = .done r') :
    (p.next k).Decides W ↔ p.Decides fun r => ∀ r', k r = .done r' → W r' := by
  induction p with
  | done r =>
    obtain ⟨r', hr⟩ := hk r
    show (k r).Decides W ↔ _
    rw [hr]
    refine not_congr ⟨fun hw r'' h => ?_, fun hw => hw r' hr⟩
    cases hr.symm.trans h
    exact hw
  | ask q p ih => exact forall_congr' fun a => ih a
  | act f p ih =>
    refine forall_congr' fun s => or_congr ⟨fun ⟨r, h⟩ => ?_, fun ⟨r, h⟩ => ?_⟩ (ih s)
    · dsimp only at h
      cases hp : p s with
      | done r' => exact ⟨r', rfl⟩
      | ask q k => simp [hp, next] at h
      | act f k => simp [hp, next] at h
    · dsimp only
      rw [h]
      exact hk r

theorem decides_map {W : Except ε' β → Prop} (p : Prog S ε α) (g : Except ε α → Except ε' β) :
    (p.next fun r => .done (g r)).Decides W ↔ p.Decides fun r => W (g r) := by
  rw [decides_next p fun r => ⟨g r, rfl⟩]
  have hg : ∀ r, (∀ r', (.done (g r) : Prog S ε' β) = .done r' → W r') ↔ W (g r) := by
    refine fun r => ⟨fun h => h _ rfl, fun h r' hr => ?_⟩
    cases hr
    exact h
  rw [funext fun r => propext (hg r)]

end Prog

open Prog

/-! ## Executions -/

section
variable {S : Signature} {ε α E : Type}

/-- one step of a program: a question that `env` answers, or an atomic step. -/
inductive Step (env : E → (q : S.Ask) → S.Answer q → E → Prop) :
    Prog S ε α × S.State × E → Prog S ε α × S.State × E → Prop where
  | asked {q k s e a e'} : env e q a e' → Step env (.ask q k, s, e) (k a, s, e')
  | acted {f k s e} : Step env (.act f k, s, e) (k s, f s, e)

/-- an execution in which other parties change the state by `R` between the steps. -/
inductive Exec (R : S.State → S.State → Prop) (env : E → (q : S.Ask) → S.Answer q → E → Prop) :
    Prog S ε α × S.State × E → Prog S ε α × S.State × E → Prop where
  | refl {c} : Exec R env c c
  | step {c d d'} : Exec R env c d → Step env d d' → Exec R env c d'
  | other {c p s s' e} : Exec R env c (p, s, e) → R s s' → Exec R env c (p, s', e)

/-- a program that runs to its end. -/
def Runs (R : S.State → S.State → Prop) (env : E → (q : S.Ask) → S.Answer q → E → Prop)
    (p : Prog S ε α) (s : S.State) (e : E) (r : Except ε α) (s' : S.State) (e' : E) : Prop :=
  Exec R env (p, s, e) (.done r, s', e')

variable {R : S.State → S.State → Prop} {env : E → (q : S.Ask) → S.Answer q → E → Prop}

theorem Exec.trans {a b c : Prog S ε α × S.State × E} (h : Exec R env a b) (h' : Exec R env b c) :
    Exec R env a c := by
  induction h' with
  | refl => exact h
  | step _ hs ih => exact ih.step hs
  | other _ hr ih => exact ih.other hr

/-- an execution of the first program is one of the sequence. -/
theorem Exec.next {ε' β : Type} {c d : Prog S ε α × S.State × E} (h : Exec R env c d)
    (k : Except ε α → Prog S ε' β) : Exec R env (c.1.next k, c.2) (d.1.next k, d.2) := by
  induction h with
  | refl => exact .refl
  | step _ hs ih =>
    cases hs with
    | asked ha => exact ih.step (.asked ha)
    | acted => exact ih.step .acted
  | other _ hr ih => exact ih.other hr

/-- the second program runs where the first one ended. -/
theorem Runs.next {ε' β : Type} {p : Prog S ε α} {k : Except ε α → Prog S ε' β}
    {s s' s'' : S.State} {e e' e'' : E} {r : Except ε α} {r' : Except ε' β}
    (h : Runs R env p s e r s' e') (h' : Runs R env (k r) s' e' r' s'' e'') :
    Runs R env (p.next k) s e r' s'' e'' := (Exec.next h k).trans h'

/-- an execution of a sequence is one of the first program, or has come to the second. -/
theorem Exec.of_next {ε' β : Type} {p : Prog S ε α} {k : Except ε α → Prog S ε' β} {s : S.State}
    {e : E} {d : Prog S ε' β × S.State × E} (h : Exec R env (p.next k, s, e) d) :
    (∃ p', d.1 = p'.next k ∧ Exec R env (p, s, e) (p', d.2)) ∨
      ∃ r s' e', Runs R env p s e r s' e' ∧ Exec R env (k r, s', e') d := by
  generalize hc : (p.next k, s, e) = c at h
  induction h with
  | refl =>
    subst hc
    exact .inl ⟨p, rfl, .refl⟩
  | @step d d' _ hs ih =>
    obtain ⟨q, t, f⟩ := d
    rcases ih with ⟨p', hd, hp⟩ | ⟨r, s', e', hr, hk⟩
    · have hq : q = p'.next k := hd
      cases p' with
      | done r =>
        rw [show q = k r from hq] at hs
        exact .inr ⟨r, t, f, hp, .step .refl hs⟩
      | ask x y =>
        subst hq
        cases hs with
        | asked ha => exact .inl ⟨_, rfl, hp.step (.asked ha)⟩
      | act x y =>
        subst hq
        cases hs with
        | acted => exact .inl ⟨_, rfl, hp.step .acted⟩
    · exact .inr ⟨r, s', e', hr, hk.step hs⟩
  | other _ ho ih =>
    rcases ih with ⟨p', hd, hp⟩ | ⟨r, s', e', hr, hk⟩
    · exact .inl ⟨p', hd, hp.other ho⟩
    · exact .inr ⟨r, s', e', hr, hk.other ho⟩

/-- **A sequence that runs to its end runs its first program to the end, then the second.** -/
theorem Runs.of_next {ε' β : Type} {p : Prog S ε α} {k : Except ε α → Prog S ε' β}
    {s s' : S.State} {e e' : E} {r : Except ε' β} (h : Runs R env (p.next k) s e r s' e') :
    ∃ r₁ s₁ e₁, Runs R env p s e r₁ s₁ e₁ ∧ Runs R env (k r₁) s₁ e₁ r s' e' := by
  rcases Exec.of_next h with ⟨p', hd, hp⟩ | ⟨r₁, s₁, e₁, hr, hk⟩
  · cases p' with
    | done r₁ =>
      refine ⟨r₁, s', e', hp, ?_⟩
      rw [show k r₁ = .done r from hd.symm]
      exact .refl
    | ask q p => cases hd
    | act f p => cases hd
  · exact ⟨r₁, s₁, e₁, hr, hk⟩

/-- the same of a sequence in which an error of the first program ends the whole. -/
theorem Runs.of_bind {β : Type} {p : Prog S ε α} {k : α → Prog S ε β} {s s' : S.State} {e e' : E}
    {r : Except ε β} (h : Runs R env (p >>= k) s e r s' e') :
    ∃ r₁ s₁ e₁, Runs R env p s e r₁ s₁ e₁ ∧ match r₁ with
      | .ok a => Runs R env (k a) s₁ e₁ r s' e'
      | .error x => Runs R env (.done (.error x)) s₁ e₁ r s' e' := by
  obtain ⟨r₁, s₁, e₁, hp, hk⟩ := Runs.of_next h
  refine ⟨r₁, s₁, e₁, hp, ?_⟩
  cases r₁ with
  | ok a => exact hk
  | error x => exact hk

/-- a program that has ended stays as it is. -/
theorem Runs.of_done {r r' : Except ε α} {s s' : S.State} {e e' : E}
    (h : Runs R env (.done r : Prog S ε α) s e r' s' e') : r' = r ∧ e' = e := by
  have : ∀ {c d : Prog S ε α × S.State × E}, Exec R env c d → c.1 = .done r →
      d.1 = .done r ∧ d.2.2 = c.2.2 := by
    intro c d hx hc
    induction hx with
    | refl => exact ⟨hc, rfl⟩
    | @step d d' _ hs ih =>
      obtain ⟨p, t, f⟩ := d
      have hp : p = .done r := ih.1
      subst hp
      cases hs
    | other _ _ ih => exact ih
  obtain ⟨h1, h2⟩ := this h rfl
  exact ⟨by cases h1; rfl, h2⟩

/-- `n` steps of a program, alone; `ans i` answers the question with `i` steps left. -/
def Prog.advance (ans : Nat → (q : S.Ask) → S.Answer q) :
    Nat → Prog S ε α × S.State → Prog S ε α × S.State
  | 0, c => c
  | _ + 1, (.done r, s) => (.done r, s)
  | n + 1, (.ask q k, s) => advance ans n (k (ans n q), s)
  | n + 1, (.act f k, s) => advance ans n (k s, f s)

/-- steps with answers that the environment may give are an execution. -/
theorem advance_exec {ans : Nat → (q : S.Ask) → S.Answer q} {e : E}
    (ha : ∀ i q, env e q (ans i q) e) (n : Nat) (p : Prog S ε α) (s : S.State) :
    Exec R env (p, s, e) ((advance ans n (p, s)).1, (advance ans n (p, s)).2, e) := by
  induction n generalizing p s with
  | zero => exact .refl
  | succ n ih =>
    cases p with
    | done r => exact .refl
    | ask q k => exact (Exec.step .refl (.asked (ha n q))).trans (ih _ _)
    | act f k => exact (Exec.step .refl .acted).trans (ih _ _)

/-- a program that has answered after some steps runs to its end. -/
theorem advance_runs {ans : Nat → (q : S.Ask) → S.Answer q} {e : E}
    (ha : ∀ i q, env e q (ans i q) e) {n : Nat} {p : Prog S ε α} {s : S.State} {r : Except ε α}
    (h : (advance ans n (p, s)).1.answer? = some r) : Runs R env p s e r (advance ans n (p, s)).2 e := by
  have hx := advance_exec (R := R) ha n p s
  rwa [eq_done h] at hx

/-- `n` steps of a program, alone, in an environment that `move` leads on. -/
def Prog.travel (ans : Nat → (q : S.Ask) → S.Answer q) (move : Nat → S.Ask → E → E) :
    Nat → Prog S ε α × S.State × E → Prog S ε α × S.State × E
  | 0, c => c
  | _ + 1, (.done r, c) => (.done r, c)
  | n + 1, (.ask q k, s, e) => travel ans move n (k (ans n q), s, move n q e)
  | n + 1, (.act f k, s, e) => travel ans move n (k s, f s, e)

/-- the same with answers that depend on where the environment stands. -/
def Prog.tour (ans : Nat → (q : S.Ask) → E → S.Answer q) (move : Nat → S.Ask → E → E) :
    Nat → Prog S ε α × S.State × E → Prog S ε α × S.State × E
  | 0, c => c
  | _ + 1, (.done r, c) => (.done r, c)
  | n + 1, (.ask q k, s, e) => tour ans move n (k (ans n q e), s, move n q e)
  | n + 1, (.act f k, s, e) => tour ans move n (k s, f s, e)

/-- they are an execution when the environment may do so; `K i` holds with `i` steps left. -/
theorem tour_exec {ans : Nat → (q : S.Ask) → E → S.Answer q} {move : Nat → S.Ask → E → E}
    {K : Nat → E → Prop} (hK : ∀ i e, K (i + 1) e → K i e)
    (ha : ∀ i q e, K (i + 1) e → env e q (ans i q e) (move i q e) ∧ K i (move i q e)) (n : Nat)
    (p : Prog S ε α) (s : S.State) (e : E) (he : K n e) :
    Exec R env (p, s, e) (tour ans move n (p, s, e)) ∧ ∃ i, K i (tour ans move n (p, s, e)).2.2 := by
  induction n generalizing p s e with
  | zero => exact ⟨.refl, 0, he⟩
  | succ n ih =>
    cases p with
    | done r => exact ⟨.refl, n + 1, he⟩
    | ask q k =>
      obtain ⟨hq, he'⟩ := ha n q e he
      obtain ⟨hx, hi⟩ := ih (k (ans n q e)) s (move n q e) he'
      exact ⟨(Exec.step .refl (.asked hq)).trans hx, hi⟩
    | act f k =>
      obtain ⟨hx, hi⟩ := ih (k s) (f s) e (hK n e he)
      exact ⟨(Exec.step .refl .acted).trans hx, hi⟩

theorem travel_eq_tour (ans : Nat → (q : S.Ask) → S.Answer q) (move : Nat → S.Ask → E → E) (n : Nat)
    (c : Prog S ε α × S.State × E) : travel ans move n c = tour (fun i q _ => ans i q) move n c := by
  induction n generalizing c with
  | zero => rfl
  | succ n ih =>
    obtain ⟨p, s, e⟩ := c
    cases p with
    | done r => rfl
    | ask q k => exact ih _
    | act f k => exact ih _

theorem travel_exec {ans : Nat → (q : S.Ask) → S.Answer q} {move : Nat → S.Ask → E → E}
    {K : Nat → E → Prop} (hK : ∀ i e, K (i + 1) e → K i e)
    (ha : ∀ i q e, K (i + 1) e → env e q (ans i q) (move i q e) ∧ K i (move i q e)) (n : Nat)
    (p : Prog S ε α) (s : S.State) (e : E) (he : K n e) :
    Exec R env (p, s, e) (travel ans move n (p, s, e)) ∧
      ∃ i, K i (travel ans move n (p, s, e)).2.2 := by
  rw [travel_eq_tour]
  exact tour_exec hK ha n p s e he

/-- the program that has answered on its way runs to its end. -/
theorem runs_of_answer {c : Prog S ε α × S.State × E} {p : Prog S ε α} {s : S.State} {e : E}
    {r : Except ε α} (hx : Exec R env (p, s, e) c) (h : c.1.answer? = some r) :
    Runs R env p s e r c.2.1 c.2.2 := by
  have hd : c = (.done r, c.2) := Prod.ext (eq_done h) rfl
  unfold Runs
  rwa [hd] at hx

/-- a program that has answered on its way runs to its end. -/
theorem travel_runs {ans : Nat → (q : S.Ask) → S.Answer q} {move : Nat → S.Ask → E → E} {n : Nat}
    {p : Prog S ε α} {s : S.State} {e : E} {r : Except ε α}
    (hx : Exec R env (p, s, e) (travel ans move n (p, s, e)))
    (h : (travel ans move n (p, s, e)).1.answer? = some r) :
    Runs R env p s e r (travel ans move n (p, s, e)).2.1 (travel ans move n (p, s, e)).2.2 :=
  runs_of_answer hx h

end

/-! ## Preconditions under interference -/

section
variable {S : Signature} {ε ε' α β E : Type}

/-- every atomic step of `p` satisfies `G`, and `Q` holds of the outcome when `p` ends. -/
def Prog.Safe (R : S.State → S.State → Prop) (env : E → (q : S.Ask) → S.Answer q → E → Prop)
    (G : S.State → S.State → Option (Except ε α) → Prop) :
    Prog S ε α → (Except ε α → S.State → E → Prop) → S.State → E → Prop
  | .done r, Q, s, e => Q r s e
  | .ask q k, Q, s, e => ∀ s', R s s' → ∀ a e', env e q a e' → (k a).Safe R env G Q s' e'
  | .act f k, Q, s, e =>
    ∀ s', R s s' → G s' (f s') (k s').answer? ∧ (k s').Safe R env G Q (f s') e

/-- a guarantee that does not look at the answer. -/
def always {ε α σ : Type} (G : σ → σ → Prop) : σ → σ → Option (Except ε α) → Prop :=
  fun s s' _ => G s s'

variable {R : S.State → S.State → Prop} {env : E → (q : S.Ask) → S.Answer q → E → Prop}
  {G : S.State → S.State → Option (Except ε α) → Prop} {H : S.State → S.State → Prop}
  {s : S.State} {e : E}

@[simp] theorem safe_done (r : Except ε α) (Q : Except ε α → S.State → E → Prop) :
    (Prog.done r : Prog S ε α).Safe R env G Q s e ↔ Q r s e := Iff.rfl

@[simp] theorem safe_pure (a : α) (Q : Except ε α → S.State → E → Prop) :
    (Pure.pure a : Prog S ε α).Safe R env G Q s e ↔ Q (.ok a) s e := Iff.rfl

@[simp] theorem safe_fail (x : ε) (Q : Except ε α → S.State → E → Prop) :
    (fail x : Prog S ε α).Safe R env G Q s e ↔ Q (.error x) s e := Iff.rfl

@[simp] theorem safe_lift (x : Except ε α) (Q : Except ε α → S.State → E → Prop) :
    (lift x : Prog S ε α).Safe R env G Q s e ↔ Q x s e := Iff.rfl

theorem safe_question (q : S.Ask) {G : S.State → S.State → Option (Except ε (S.Answer q)) → Prop}
    (Q : Except ε (S.Answer q) → S.State → E → Prop) :
    (question q : Prog S ε (S.Answer q)).Safe R env G Q s e ↔
      ∀ s', R s s' → ∀ a e', env e q a e' → Q (.ok a) s' e' := Iff.rfl

/-- the rule of sequencing, with a guarantee on the answer of the whole. -/
theorem safe_next (p : Prog S ε α) (k : Except ε α → Prog S ε' β)
    {G : S.State → S.State → Option (Except ε' β) → Prop}
    (Q : Except ε' β → S.State → E → Prop) :
    (p.next k).Safe R env G Q s e ↔
      p.Safe R env (fun s s' o => G s s' (o.bind fun r => (k r).answer?))
        (fun r s' e' => (k r).Safe R env G Q s' e') s e := by
  induction p generalizing s e with
  | done r => exact Iff.rfl
  | ask q p ih =>
    exact forall_congr' fun s' => imp_congr_right fun _ => forall_congr' fun a =>
      forall_congr' fun e' => imp_congr_right fun _ => ih a
  | act f p ih =>
    refine forall_congr' fun s' => imp_congr_right fun _ => and_congr ?_ (ih s')
    rw [answer?_next]

theorem safe_bind (p : Prog S ε α) (k : α → Prog S ε β) (Q : Except ε β → S.State → E → Prop) :
    (p >>= k).Safe R env (always H) Q s e ↔
      p.Safe R env (always H) (fun r s' e' => match r with
        | .ok a => (k a).Safe R env (always H) Q s' e'
        | .error x => Q (.error x) s' e') s e := by
  refine (safe_next p _ Q).trans (iff_of_eq ?_)
  show p.Safe R env (always H) _ s e = _
  congr 1
  funext r s' e'
  cases r <;> rfl

theorem safe_outcome (p : Prog S ε α) (Q : Except ε' (Except ε α) → S.State → E → Prop) :
    (p.outcome : Prog S ε' (Except ε α)).Safe R env (always H) Q s e ↔
      p.Safe R env (always H) (fun r => Q (.ok r)) s e := safe_next p _ Q

theorem safe_mapError (p : Prog S ε α) (h : ε → ε') (Q : Except ε' α → S.State → E → Prop) :
    (p.mapError h).Safe R env (always H) Q s e ↔
      p.Safe R env (always H) (fun r => Q (r.mapError h)) s e := safe_next p _ Q

theorem safe_ite (c : Prop) [Decidable c] (p q : Prog S ε α)
    (Q : Except ε α → S.State → E → Prop) :
    (if c then p else q).Safe R env G Q s e ↔
      (c → p.Safe R env G Q s e) ∧ (¬c → q.Safe R env G Q s e) := by
  by_cases h : c <;> simp [h]

/-- the consequence rule: less interference, a weaker guarantee and a weaker outcome. -/
theorem Prog.Safe.mono {R' : S.State → S.State → Prop}
    {G' : S.State → S.State → Option (Except ε α) → Prop}
    {env' : E → (q : S.Ask) → S.Answer q → E → Prop}
    {Q Q' : Except ε α → S.State → E → Prop} {p : Prog S ε α}
    (hR : ∀ s s', R' s s' → R s s') (hE : ∀ e q a e', env' e q a e' → env e q a e')
    (hG : ∀ s s' o, G s s' o → G' s s' o) (hQ : ∀ r s e, Q r s e → Q' r s e)
    (h : p.Safe R env G Q s e) : p.Safe R' env' G' Q' s e := by
  induction p generalizing s e with
  | done r => exact hQ r s e h
  | ask q p ih => exact fun s' hs a e' ha => ih a (h s' (hR _ _ hs) a e' (hE _ _ _ _ ha))
  | act f p ih => exact fun s' hs => ⟨hG _ _ _ (h s' (hR _ _ hs)).1, ih s' (h s' (hR _ _ hs)).2⟩

theorem Prog.Safe.imp {Q Q' : Except ε α → S.State → E → Prop} {p : Prog S ε α}
    (hQ : ∀ r s e, Q r s e → Q' r s e) (h : p.Safe R env G Q s e) : p.Safe R env G Q' s e :=
  h.mono (fun _ _ => id) (fun _ _ _ _ => id) (fun _ _ _ => id) hQ

/-- nothing is asked of a program. -/
theorem safe_trivial (p : Prog S ε α) (s : S.State) (e : E) :
    p.Safe R env (always fun _ _ => True) (fun _ _ _ => True) s e := by
  induction p generalizing s e with
  | done r => trivial
  | ask q p ih => exact fun s' _ a e' _ => ih a s' e'
  | act f p ih => exact fun s' _ => ⟨trivial, ih s' (f s') e⟩

/-- the environment of a program goes on as it does with every question. -/
theorem safe_environment {L : E → E → Prop} (hr : ∀ e, L e e)
    (ht : ∀ {a b c}, L a b → L b c → L a c) (henv : ∀ e q a e', env e q a e' → L e e')
    (p : Prog S ε α) (s : S.State) (e : E) :
    p.Safe R env (always fun _ _ => True) (fun _ _ e' => L e e') s e := by
  have main : ∀ e₀, L e₀ e →
      p.Safe R env (always fun _ _ => True) (fun _ _ e' => L e₀ e') s e := by
    intro e₀ h₀
    induction p generalizing s e with
    | done r => exact h₀
    | ask q p ih => exact fun s' _ a e' ha => ih a s' e' (ht h₀ (henv _ _ _ _ ha))
    | act f p ih => exact fun s' _ => ⟨trivial, ih s' (f s') e h₀⟩
  exact main e (hr e)

/-- two preconditions of one program hold together. -/
theorem Prog.Safe.and {G' : S.State → S.State → Option (Except ε α) → Prop}
    {Q Q' : Except ε α → S.State → E → Prop} {p : Prog S ε α}
    (h : p.Safe R env G Q s e) (h' : p.Safe R env G' Q' s e) :
    p.Safe R env (fun s s' o => G s s' o ∧ G' s s' o) (fun r s e => Q r s e ∧ Q' r s e) s e := by
  induction p generalizing s e with
  | done r => exact ⟨h, h'⟩
  | ask q p ih => exact fun s' hs a e' ha => ih a (h s' hs a e' ha) (h' s' hs a e' ha)
  | act f p ih =>
    exact fun s' hs => ⟨⟨(h s' hs).1, (h' s' hs).1⟩, ih s' (h s' hs).2 (h' s' hs).2⟩

/-- a program that has not ended does not notice what the others do. -/
theorem Prog.Safe.other {Q : Except ε α → S.State → E → Prop} {p : Prog S ε α} {s' : S.State}
    (ht : ∀ {a b c}, R a b → R b c → R a c) (hp : p.answer? = none) (hs : R s s')
    (h : p.Safe R env G Q s e) : p.Safe R env G Q s' e := by
  cases p with
  | done r => cases hp
  | ask q k => exact fun s'' hs'' => h s'' (ht hs hs'')
  | act f k => exact fun s'' hs'' => h s'' (ht hs hs'')

/-- a step of a safe program leads to a safe program. -/
theorem Prog.Safe.step {Q : Except ε α → S.State → E → Prop} {p p' : Prog S ε α} {s' : S.State}
    {e' : E} (hr : ∀ a, R a a) (h : p.Safe R env G Q s e) (hs : Step env (p, s, e) (p', s', e')) :
    p'.Safe R env G Q s' e' := by
  cases hs with
  | asked ha => exact h _ (hr _) _ _ ha
  | acted => exact (h _ (hr _)).2

/-- **Every execution of a safe program is safe**: in each of its states the rest of the program
is safe, up to what the others did since it ended. -/
theorem Prog.Safe.exec {Q : Except ε α → S.State → E → Prop} {c d : Prog S ε α × S.State × E}
    (hr : ∀ a, R a a) (ht : ∀ {a b c}, R a b → R b c → R a c)
    (h : c.1.Safe R env G Q c.2.1 c.2.2) (hx : Exec R env c d) :
    ∃ s, R s d.2.1 ∧ d.1.Safe R env G Q s d.2.2 ∧ (d.1.answer? = none → s = d.2.1) := by
  induction hx with
  | refl => exact ⟨_, hr _, h, fun _ => rfl⟩
  | @step d d' _ hs ih =>
    obtain ⟨s, hsd, hsafe, heq⟩ := ih
    obtain ⟨p, t, e⟩ := d
    have hp : p.answer? = none := by cases hs <;> rfl
    rw [heq hp] at hsafe
    exact ⟨_, hr _, hsafe.step hr hs, fun _ => rfl⟩
  | @other p s' s'' e' _ hs ih =>
    obtain ⟨t, htd, hsafe, heq⟩ := ih
    rcases hp : p.answer? with _ | r
    · exact ⟨s'', hr _, (heq hp ▸ hsafe).other ht hp hs, fun _ => rfl⟩
    · exact ⟨t, ht htd hs, hsafe, by simp⟩

/-- **A safe program that runs to its end ends in `Q`**, up to what the others did since. -/
theorem Prog.Safe.runs {Q : Except ε α → S.State → E → Prop} {p : Prog S ε α} {r : Except ε α}
    {s' : S.State} {e' : E} (hr : ∀ a, R a a) (ht : ∀ {a b c}, R a b → R b c → R a c)
    (h : p.Safe R env G Q s e) (hx : Runs R env p s e r s' e') :
    ∃ t, R t s' ∧ Q r t e' := by
  obtain ⟨t, hts, hq, -⟩ := Prog.Safe.exec (c := (p, s, e)) hr ht h hx
  exact ⟨t, hts, hq⟩

/-- what every step of a program that runs alone leads to holds wherever it is cut. -/
theorem Prog.Safe.cut {J : S.State → Prop} {Q : Except ε α → S.State → E → Prop}
    {c d : Prog S ε α × S.State × E}
    (h : c.1.Safe Eq env (always fun _ s' => J s') Q c.2.1 c.2.2) (hJ : J c.2.1)
    (hx : Exec Eq env c d) :
    J d.2.1 ∧ d.1.Safe Eq env (always fun _ s' => J s') Q d.2.1 d.2.2 := by
  induction hx with
  | refl => exact ⟨hJ, h⟩
  | @step d d' _ hs ih =>
    obtain ⟨hd, hsafe⟩ := ih
    cases hs with
    | asked ha => exact ⟨hd, hsafe _ rfl _ _ ha⟩
    | acted => exact hsafe _ rfl
  | other _ hs ih =>
    cases hs
    exact ih

/-- the rule of a transaction: its precondition holds in every state the others may lead to. -/
theorem safe_transact {fuse : Option Nat} {t : Tx S.State ε (Fate α)}
    {Q : Except ε α → S.State → E → Prop} {faulty : Prop} (hf : fuse ≠ none → faulty)
    (h : ∀ s', R s s' → t.closes faulty (fun r s'' => G s' s'' (some r) ∧ Q r s'' e) s') :
    (transact fuse t).Safe R env G Q s e := by
  intro s' hs
  exact settle_of_closes fuse hf (h s' hs)

end

end ChannelDigests.Lib
