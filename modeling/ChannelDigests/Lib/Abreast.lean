import ChannelDigests.Lib.Program

/-!
# Two runs side by side

One transaction in two states, statement by statement, and programs that run to their end alone.

* `Tx.Abreast`         two transactions that are refused alike, and what holds of their values;
* `abreast_bind` …     one rule a statement;
* `settle_abreast`     **two such transactions have related outcomes**, whichever statement is lost;
* `Prog.conduct`       a program that runs to its end, its `n`-th question answered by `ans n`.
-/

set_option linter.unusedVariables false

namespace ChannelDigests.Lib

variable {σ ε α β : Type}

/-! ## Transactions -/

/-- the transactions send the same statements, are refused alike, and their values and states
satisfy `Q` when they end. -/
def Tx.Abreast (Q : α → σ → α → σ → Prop) : Tx σ ε α → Tx σ ε α → σ → σ → Prop
  | .pure a, .pure a', s, s' => Q a s a' s'
  | .throw e, .throw e', _, _ => e = e'
  | .stmt lost f k, .stmt lost' f' k', s, s' =>
    lost = lost' ∧ (k s).Abreast Q (k' s') (f s) (f' s')
  | _, _, _, _ => False

section
variable {Q : α → σ → α → σ → Prop} {s s' : σ}

theorem abreast_pure {a a' : α} (h : Q a s a' s') :
    (Pure.pure a : Tx σ ε α).Abreast Q (Pure.pure a') s s' := h

theorem abreast_throw (e : ε) : (Tx.throw e : Tx σ ε α).Abreast Q (.throw e) s s' := rfl

/-- the rule of sequencing. -/
theorem abreast_bind {Q : β → σ → β → σ → Prop} {t t' : Tx σ ε α} {k k' : α → Tx σ ε β}
    (h : t.Abreast (fun a s a' s' => (k a).Abreast Q (k' a') s s') t' s s') :
    (t >>= k).Abreast Q (t' >>= k') s s' := by
  show (t.bind k).Abreast Q (t'.bind k') s s'
  induction t generalizing t' s s' with
  | pure a =>
    cases t' with
    | pure a' => exact h
    | throw e => exact absurd h id
    | stmt lost f t' => exact absurd h id
  | throw e =>
    cases t' with
    | pure a' => exact absurd h id
    | throw e' => exact h
    | stmt lost f t' => exact absurd h id
  | stmt lost f t ih =>
    cases t' with
    | pure a' => exact absurd h id
    | throw e' => exact absurd h id
    | stmt lost' f' t' => exact ⟨h.1, ih s h.2⟩

theorem abreast_change {lost : ε} {f f' : σ → σ} {g g' : σ → α}
    (h : Q (g s) (f s) (g' s') (f' s')) :
    (Tx.change lost f g).Abreast Q (.change lost f' g') s s' := ⟨rfl, h⟩

theorem abreast_mark {lost : ε} {a a' : α} (h : Q a s a' s') :
    (Tx.mark lost a).Abreast Q (.mark lost a') s s' := ⟨rfl, h⟩

/-- a statement that is refused in both states, or in neither. -/
theorem abreast_attempt {lost : ε} {f f' : σ → Except ε (α × σ)}
    (h : (∃ e, f s = .error e ∧ f' s' = .error e) ∨
      ∃ a t a' t', f s = .ok (a, t) ∧ f' s' = .ok (a', t') ∧ Q a t a' t') :
    (Tx.attempt lost f).Abreast Q (.attempt lost f') s s' := by
  refine ⟨rfl, ?_⟩
  rcases h with ⟨e, he, he'⟩ | ⟨a, t, a', t', ha, ha', hq⟩
  · simp only [he, he']
    exact abreast_throw e
  · simp only [ha, ha']
    exact hq

theorem abreast_check {b : Bool} {e : ε} {Q : Unit → σ → Unit → σ → Prop} (h : Q () s () s') :
    (Tx.check b e).Abreast Q (.check b e) s s' := by
  cases b with
  | false => exact rfl
  | true => exact h

/-- related values, or the same error. -/
theorem run_abreast {t t' : Tx σ ε α} (h : t.Abreast Q t' s s') (fuse : Option Nat) :
    match t.run fuse s, t'.run fuse s' with
    | .ok x, .ok x' => Q x.1 x.2 x'.1 x'.2
    | .error e, .error e' => e = e'
    | _, _ => False := by
  induction t generalizing t' s s' fuse with
  | pure a =>
    cases t' with
    | pure a' => exact h
    | throw e => exact absurd h id
    | stmt lost f t' => exact absurd h id
  | throw e =>
    cases t' with
    | pure a' => exact absurd h id
    | throw e' => exact h
    | stmt lost f t' => exact absurd h id
  | stmt lost f t ih =>
    cases t' with
    | pure a' => exact absurd h id
    | throw e' => exact absurd h id
    | stmt lost' f' t' =>
      rcases fuse with _ | _ | n
      · exact ih s h.2 none
      · exact h.1
      · exact ih s h.2 (some n)

end

/-- **Two transactions side by side have related outcomes**, whichever statement is lost. -/
theorem settle_abreast {R : Except ε α → σ → Except ε α → σ → Prop} {t t' : Tx σ ε (Fate α)}
    {s s' : σ} (fuse : Option Nat) (hE : ∀ e, R (.error e) s (.error e) s')
    (h : t.Abreast (fun fate s₁ fate' s₁' => match fate, fate' with
      | .committed a, .committed a' => R (.ok a) s₁ (.ok a') s₁'
      | .dropped a, .dropped a' => R (.ok a) s (.ok a') s'
      | _, _ => False) t' s s') :
    R (settle t fuse s).1 (settle t fuse s).2 (settle t' fuse s').1 (settle t' fuse s').2 := by
  have hrun := run_abreast h fuse
  unfold settle
  rcases hr : t.run fuse s with e | ⟨fate, s₁⟩ <;>
    rcases hr' : t'.run fuse s' with e' | ⟨fate', s₁'⟩ <;> rw [hr, hr'] at hrun
  · cases hrun
    exact hE e
  · exact absurd hrun id
  · exact absurd hrun id
  · cases fate with
    | committed a =>
      cases fate' with
      | committed a' => exact hrun
      | dropped a' => exact absurd hrun id
    | dropped a =>
      cases fate' with
      | committed a' => exact absurd hrun id
      | dropped a' => exact hrun

/-! ## Programs -/

section
variable {S : Signature} {ε' : Type}

/-- a program that runs to its end, alone, with the number of questions it has asked. -/
def Prog.conduct (ans : Nat → (q : S.Ask) → S.Answer q) :
    Prog S ε α → Nat → S.State → (Except ε α × S.State) × Nat
  | .done r, n, s => ((r, s), n)
  | .ask q k, n, s => (k (ans n q)).conduct ans (n + 1) s
  | .act f k, n, s => (k s).conduct ans n (f s)

/-- a sequence runs the second program from where the first one ended. -/
theorem conduct_next {ans : Nat → (q : S.Ask) → S.Answer q} (p : Prog S ε α)
    (k : Except ε α → Prog S ε' β) (n : Nat) (s : S.State) :
    (p.next k).conduct ans n s =
      (k (p.conduct ans n s).1.1).conduct ans (p.conduct ans n s).2 (p.conduct ans n s).1.2 := by
  induction p generalizing n s with
  | done r => rfl
  | ask q p ih => exact ih _ _ _
  | act f p ih => exact ih _ _ _

theorem conduct_bind {ans : Nat → (q : S.Ask) → S.Answer q} (p : Prog S ε α) (k : α → Prog S ε β)
    (n : Nat) (s : S.State) :
    ((p >>= k).conduct ans n s).1 =
      match (p.conduct ans n s).1.1 with
      | .ok a => ((k a).conduct ans (p.conduct ans n s).2 (p.conduct ans n s).1.2).1
      | .error e => (.error e, (p.conduct ans n s).1.2) := by
  refine (congrArg Prod.fst (conduct_next p _ n s)).trans ?_
  rcases (p.conduct ans n s).1.1 with e | a
  · rfl
  · rfl

end

end ChannelDigests.Lib
