import ChannelDigests.Lib.Program

/-!
# What a program asks, and when

The guarantee of `Prog.Safe` sees the states before and after a step.  Here an assertion also sees
each question with the state it is asked in, and the guarantee of a step sees what the environment
has become.

* `Prog.Obeys`        every question satisfies `A`, every step `G`, and the outcome `Q`;
* `obeys_next`        the rule of sequencing;
* `Prog.Obeys.exec`   **every execution of such a program obeys**;
* `Prog.Obeys.holds`  what questions, steps and the others keep holds in every execution;
* `Prog.Safe.holds`   the same for an invariant of the state;
* `Prog.Asks`         every question satisfies `A`, whatever the answers and the states are;
* `Exec.answers`      an execution in an environment that answers more.
-/

namespace ChannelDigests.Lib

section
variable {S : Signature} {ε ε' α β E : Type}

/-- every question asked satisfies `A`, every atomic step `G`, and `Q` holds when `p` ends. -/
def Prog.Obeys (R : S.State → S.State → Prop) (env : E → (q : S.Ask) → S.Answer q → E → Prop)
    (A : S.State → E → S.Ask → Prop) (G : E → S.State → S.State → Prop) :
    Prog S ε α → (Except ε α → S.State → E → Prop) → S.State → E → Prop
  | .done r, Q, s, e => Q r s e
  | .ask q k, Q, s, e => ∀ s', R s s' →
    A s' e q ∧ ∀ a e', env e q a e' → (k a).Obeys R env A G Q s' e'
  | .act f k, Q, s, e => ∀ s', R s s' → G e s' (f s') ∧ (k s').Obeys R env A G Q (f s') e

variable {R : S.State → S.State → Prop} {env : E → (q : S.Ask) → S.Answer q → E → Prop}
  {A : S.State → E → S.Ask → Prop} {G : E → S.State → S.State → Prop} {s : S.State} {e : E}

/-- the rule of sequencing. -/
theorem obeys_next (p : Prog S ε α) (k : Except ε α → Prog S ε' β)
    {Q : Except ε' β → S.State → E → Prop} :
    (p.next k).Obeys R env A G Q s e ↔
      p.Obeys R env A G (fun r s' e' => (k r).Obeys R env A G Q s' e') s e := by
  induction p generalizing s e with
  | done r => exact Iff.rfl
  | ask q p ih =>
    exact forall_congr' fun s' => imp_congr_right fun _ => and_congr_right fun _ =>
      forall_congr' fun a => forall_congr' fun e' => imp_congr_right fun _ => ih a
  | act f p ih =>
    exact forall_congr' fun s' => imp_congr_right fun _ => and_congr_right fun _ => ih s'

theorem obeys_bind (p : Prog S ε α) (k : α → Prog S ε β) {Q : Except ε β → S.State → E → Prop} :
    (p >>= k).Obeys R env A G Q s e ↔
      p.Obeys R env A G (fun r s' e' => match r with
        | .ok a => (k a).Obeys R env A G Q s' e'
        | .error x => Q (.error x) s' e') s e := by
  refine (obeys_next p _).trans (iff_of_eq ?_)
  congr 1
  funext r s' e'
  cases r <;> rfl

theorem Prog.Obeys.imp {Q Q' : Except ε α → S.State → E → Prop} {p : Prog S ε α}
    (hQ : ∀ r s e, Q r s e → Q' r s e) (h : p.Obeys R env A G Q s e) :
    p.Obeys R env A G Q' s e := by
  induction p generalizing s e with
  | done r => exact hQ r s e h
  | ask q k ih => exact fun s' hs => ⟨(h s' hs).1, fun a e' ha => ih a ((h s' hs).2 a e' ha)⟩
  | act f k ih => exact fun s' hs => ⟨(h s' hs).1, ih s' (h s' hs).2⟩

/-- **Every execution of a program that obeys does so**, up to what the others did since its end. -/
theorem Prog.Obeys.exec {Q : Except ε α → S.State → E → Prop} {c d : Prog S ε α × S.State × E}
    (hr : ∀ a, R a a) (ht : ∀ {a b c}, R a b → R b c → R a c)
    (h : c.1.Obeys R env A G Q c.2.1 c.2.2) (hx : Exec R env c d) :
    ∃ s, R s d.2.1 ∧ d.1.Obeys R env A G Q s d.2.2 ∧ (d.1.answer? = none → s = d.2.1) := by
  induction hx with
  | refl => exact ⟨_, hr _, h, fun _ => rfl⟩
  | @step d d' _ hs ih =>
    obtain ⟨s, hsd, hobeys, heq⟩ := ih
    cases hs with
    | asked ha =>
      obtain rfl := heq rfl
      exact ⟨_, hr _, (hobeys _ (hr _)).2 _ _ ha, fun _ => rfl⟩
    | acted =>
      obtain rfl := heq rfl
      exact ⟨_, hr _, (hobeys _ (hr _)).2, fun _ => rfl⟩
  | @other p s' s'' e' _ hs ih =>
    obtain ⟨t, htd, hobeys, heq⟩ := ih
    cases p with
    | done r => exact ⟨t, ht htd hs, hobeys, fun h => by cases h⟩
    | ask q k =>
      obtain rfl := heq rfl
      exact ⟨s'', hr _, fun s₁ h₁ => hobeys s₁ (ht hs h₁), fun _ => rfl⟩
    | act f k =>
      obtain rfl := heq rfl
      exact ⟨s'', hr _, fun s₁ h₁ => hobeys s₁ (ht hs h₁), fun _ => rfl⟩

/-- what questions, steps and the others keep holds in every execution. -/
theorem Prog.Obeys.holds {J : S.State → E → Prop} {Q : Except ε α → S.State → E → Prop}
    {c d : Prog S ε α × S.State × E} (hr : ∀ a, R a a) (ht : ∀ {a b c}, R a b → R b c → R a c)
    (h : c.1.Obeys R env A G Q c.2.1 c.2.2) (hJ : J c.2.1 c.2.2)
    (hR : ∀ s s' e, R s s' → J s e → J s' e) (hE : ∀ s e q a e', env e q a e' → J s e → J s e')
    (hG : ∀ e s s', G e s s' → J s e → J s' e) (hx : Exec R env c d) : J d.2.1 d.2.2 := by
  induction hx with
  | refl => exact hJ
  | @step d d' hx' hs ih =>
    obtain ⟨s, -, hobeys, heq⟩ := h.exec hr ht hx'
    cases hs with
    | asked ha => exact hE _ _ _ _ _ ha ih
    | acted =>
      obtain rfl := heq rfl
      exact hG _ _ _ (hobeys _ (hr _)).1 ih
  | other _ hs ih => exact hR _ _ _ hs ih

/-- what the steps of a safe program and the others keep holds wherever it is cut. -/
theorem Prog.Safe.holds {I : S.State → Prop} {Q : Except ε α → S.State → E → Prop}
    {c d : Prog S ε α × S.State × E} (hr : ∀ a, R a a) (ht : ∀ {a b c}, R a b → R b c → R a c)
    (h : c.1.Safe R env (always fun s s' => I s → I s') Q c.2.1 c.2.2) (hI : I c.2.1)
    (hR : ∀ s s', R s s' → I s → I s') (hx : Exec R env c d) : I d.2.1 := by
  induction hx with
  | refl => exact hI
  | step hx' hs ih =>
    obtain ⟨s, -, hsafe, heq⟩ := h.exec hr ht hx'
    cases hs with
    | asked _ => exact ih
    | acted =>
      obtain rfl := heq rfl
      exact (hsafe _ (hr _)).1 ih
  | other _ hs ih => exact hR _ _ hs ih

/-! ## Questions alone -/

/-- every question of the program satisfies `A`. -/
def Prog.Asks (A : S.Ask → Prop) : Prog S ε α → Prop
  | .done _ => True
  | .ask q k => A q ∧ ∀ a, (k a).Asks A
  | .act _ k => ∀ s, (k s).Asks A

theorem Prog.Asks.next {A : S.Ask → Prop} {p : Prog S ε α} {k : Except ε α → Prog S ε' β}
    (hp : p.Asks A) (hk : ∀ r, (k r).Asks A) : (p.next k).Asks A := by
  induction p with
  | done r => exact hk r
  | ask q p ih => exact ⟨hp.1, fun a => ih a (hp.2 a)⟩
  | act f p ih => exact fun s => ih s (hp s)

/-- what is left of the program after some steps asks nothing else. -/
theorem Prog.Asks.exec {A : S.Ask → Prop} {c d : Prog S ε α × S.State × E} (hp : c.1.Asks A)
    (hx : Exec R env c d) : d.1.Asks A := by
  induction hx with
  | refl => exact hp
  | step _ hs ih =>
    cases hs with
    | asked _ => exact ih.2 _
    | acted => exact ih _
  | other _ _ ih => exact ih

/-- an environment that answers more allows the same executions. -/
theorem Exec.answers {env' : E → (q : S.Ask) → S.Answer q → E → Prop}
    {c d : Prog S ε α × S.State × E} (hx : Exec R env c d)
    (h : ∀ e q a e', env e q a e' → env' e q a e') : Exec R env' c d := by
  induction hx with
  | refl => exact .refl
  | step _ hs ih =>
    cases hs with
    | asked ha => exact ih.step (.asked (h _ _ _ _ ha))
    | acted => exact ih.step .acted
  | other _ hs ih => exact ih.other hs

end

end ChannelDigests.Lib
