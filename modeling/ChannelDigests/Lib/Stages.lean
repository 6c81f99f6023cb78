import ChannelDigests.Lib.Program

/-!
# Programs that go through stages

A machine allows a step from a stage to a stage when it allows what the step does to the state.  A
program follows a machine when each of its atomic steps is one that the machine allows.

* `Prog.Follows`     from the stage `st`, every step of the program is allowed, and `Q` holds of
                     the outcome and the last stage;
* `follows_next`     the rule of sequencing;
* `Prog.Safe.follows`   a program whose steps keep to a guarantee stays at one stage;
* `Passes`           the stages and states that the machine and the others lead through;
* `Prog.Follows.exec`   **every execution of such a program passes through the stages**.
-/

namespace ChannelDigests.Lib

section
variable {S : Signature} {ε ε' α β σ E : Type}

/-- each atomic step of the program is allowed at the stage that it is at. -/
def Prog.Follows (M : σ → S.State → S.State → σ → Prop) :
    Prog S ε α → (Except ε α → σ → Prop) → σ → Prop
  | .done r, Q, st => Q r st
  | .ask _ k, Q, st => ∀ a, (k a).Follows M Q st
  | .act f k, Q, st => ∀ s, ∃ st', M st s (f s) st' ∧ (k s).Follows M Q st'

variable {M : σ → S.State → S.State → σ → Prop} {Q Q' : Except ε α → σ → Prop} {st : σ}

theorem Prog.Follows.imp {p : Prog S ε α} (hQ : ∀ r st, Q r st → Q' r st)
    (h : p.Follows M Q st) : p.Follows M Q' st := by
  induction p generalizing st with
  | done r => exact hQ r st h
  | ask q k ih => exact fun a => ih a (h a)
  | act f k ih =>
    intro s
    obtain ⟨st', hm, hk⟩ := h s
    exact ⟨st', hm, ih s hk⟩

/-- the rule of sequencing. -/
theorem follows_next (p : Prog S ε α) (k : Except ε α → Prog S ε' β) {Q : Except ε' β → σ → Prop} :
    (p.next k).Follows M Q st ↔ p.Follows M (fun r st' => (k r).Follows M Q st') st := by
  induction p generalizing st with
  | done r => exact Iff.rfl
  | ask q p ih => exact forall_congr' fun a => ih a
  | act f p ih =>
    exact forall_congr' fun s => exists_congr fun st' => and_congr_right fun _ => ih s

theorem follows_bind (p : Prog S ε α) (k : α → Prog S ε β) {Q : Except ε β → σ → Prop} :
    (p >>= k).Follows M Q st ↔ p.Follows M (fun r st' => match r with
      | .ok a => (k a).Follows M Q st'
      | .error x => Q (.error x) st') st := by
  refine (follows_next p _).trans (iff_of_eq ?_)
  congr 1
  funext r st'
  cases r <;> rfl

theorem follows_mapError (p : Prog S ε α) (h : ε → ε') {Q : Except ε' α → σ → Prop} :
    (p.mapError h).Follows M Q st ↔ p.Follows M (fun r => Q (r.mapError h)) st :=
  follows_next p _

/-- a program whose steps keep to a guarantee that the machine allows at `st` stays there. -/
theorem Prog.Safe.follows {H : S.State → S.State → Prop} {P : Except ε α → Prop} {p : Prog S ε α}
    {s : S.State} {env : E → (q : S.Ask) → S.Answer q → E → Prop} {e : E}
    (henv : ∀ q a, env e q a e)
    (h : p.Safe (fun _ _ => True) env (always H) (fun r _ _ => P r) s e)
    (hM : ∀ {s s'}, H s s' → M st s s' st) : p.Follows M (fun r st' => st' = st ∧ P r) st := by
  induction p generalizing s with
  | done r => exact ⟨rfl, h⟩
  | ask q k ih => exact fun a => ih a (h s trivial a e (henv q a))
  | act f k ih => exact fun s' => ⟨st, hM (h s' trivial).1, ih s' (h s' trivial).2⟩

/-- the stages and states after steps of the machine and, in between, of the others. -/
def Passes (R : S.State → S.State → Prop) (M : σ → S.State → S.State → σ → Prop) :
    σ × S.State → σ × S.State → Prop :=
  Relation.ReflTransGen fun a b => M a.1 a.2 b.2 b.1 ∨ (b.1 = a.1 ∧ R a.2 b.2)

variable {R : S.State → S.State → Prop} {env : E → (q : S.Ask) → S.Answer q → E → Prop}

/-- **Every execution of a program that follows a machine passes through its stages.** -/
theorem Prog.Follows.exec {c d : Prog S ε α × S.State × E} (h : c.1.Follows M Q st)
    (hx : Exec R env c d) :
    ∃ st', Passes R M (st, c.2.1) (st', d.2.1) ∧ d.1.Follows M Q st' := by
  induction hx with
  | refl => exact ⟨st, .refl, h⟩
  | @step d d' _ hs ih =>
    obtain ⟨st', hp, hf⟩ := ih
    cases hs with
    | asked _ => exact ⟨st', hp, hf _⟩
    | acted =>
      obtain ⟨st'', hm, hk⟩ := hf _
      exact ⟨st'', hp.tail (.inl hm), hk⟩
  | other _ hr ih =>
    obtain ⟨st', hp, hf⟩ := ih
    exact ⟨st', hp.tail (.inr ⟨rfl, hr⟩), hf⟩

end

end ChannelDigests.Lib
