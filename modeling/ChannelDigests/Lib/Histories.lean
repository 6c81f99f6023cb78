import ChannelDigests.Lib.Twin
import ChannelDigests.Lib.Abreast
import ChannelDigests.Lib.Alike
import ChannelDigests.Lib.Pool

/-!
# Two histories side by side

Two pools of programs that are scheduled alike, whose questions are answered alike and whose tasks
correspond.

* `Likewise`          two outcomes are the same error, or values that are related;
* `twin_seq`, `twin_transact`   sequences and transactions of twins;
* `twin_advance`      some steps of twins that are answered alike;
* `Deed`, `Pool.perform`   a history, turn by turn and with its crashes;
* `reach_performed`   every pool that is reached is reached by deeds;
* `Pool.Like`         pools of twins over related states;
* `perform_like`      **histories of like deeds lead from like pools to like pools**.
-/

set_option linter.unusedVariables false

namespace ChannelDigests.Lib
open Prog

/-! ## Twins whose errors are the same -/

/-- the same error, or related values. -/
def Likewise {ε α β : Type} (V : α → β → Prop) : Except ε α → Except ε β → Prop
  | .ok a, .ok b => V a b
  | .error e, .error e' => e = e'
  | _, _ => False

section
variable {S : Signature} {ε ε' α α' β β' : Type} {L : Likeness S} {V : α → α' → Prop}
  {W : β → β' → Prop}

theorem likewise_bind {x : Except ε α} {x' : Except ε α'} {k : α → Except ε β}
    {k' : α' → Except ε β'} (h : Likewise V x x') (hk : ∀ a a', V a a' → Likewise W (k a) (k' a')) :
    Likewise W (x >>= k) (x' >>= k') := by
  rcases x with e | a <;> rcases x' with e' | a'
  · exact h
  · exact absurd h id
  · exact absurd h id
  · exact hk a a' h

theorem twin_pure {a : α} {a' : α'} (h : V a a') :
    (Pure.pure a : Prog S ε α).Twin L (Likewise V) (Pure.pure a') := h

theorem twin_fail (e : ε) : (fail e : Prog S ε α).Twin L (Likewise V) (fail e) := rfl

theorem twin_lift {x : Except ε α} {x' : Except ε α'} (h : Likewise V x x') :
    (lift x : Prog S ε α).Twin L (Likewise V) (lift x') := h

theorem twin_seq {p : Prog S ε α} {p' : Prog S ε α'} {k : α → Prog S ε β} {k' : α' → Prog S ε β'}
    (h : p.Twin L (Likewise V) p')
    (hk : ∀ a a', V a a' → (k a).Twin L (Likewise W) (k' a')) :
    (p >>= k).Twin L (Likewise W) (p' >>= k') := by
  refine twin_bind h fun r r' hr => ?_
  rcases r with e | a <;> rcases r' with e' | a'
  · exact hr
  · exact absurd hr id
  · exact absurd hr id
  · exact hk a a' hr

theorem twin_outcome {p : Prog S ε α} {p' : Prog S ε α'} (h : p.Twin L (Likewise V) p') :
    (p.outcome : Prog S ε' (Except ε α)).Twin L (Likewise (Likewise V)) p'.outcome :=
  twin_next h fun _ _ hr => hr

theorem twin_mapError {p : Prog S ε α} {p' : Prog S ε α'} {f : ε → ε'}
    (h : p.Twin L (Likewise V) p') : (p.mapError f).Twin L (Likewise V) (p'.mapError f) := by
  refine twin_next h fun r r' hr => ?_
  rcases r with e | a <;> rcases r' with e' | a'
  · exact congrArg f hr
  · exact absurd hr id
  · exact absurd hr id
  · exact hr

/-- a question that corresponds to itself, as to its answers. -/
theorem twin_question {q q' : S.Ask} {V : S.Answer q → S.Answer q' → Prop} (hq : L.ask q q')
    (ha : ∀ a a', L.answer q q' a a' → V a a') :
    (question q : Prog S ε (S.Answer q)).Twin L (Likewise V) (question q') :=
  ⟨hq, fun a a' h => ha a a' h⟩

/-- both transactions are committed and their states correspond, or both are dropped; their values
are related. -/
def Fates {σ : Type} (I : σ → σ → Prop) (V : α → α → Prop) : Fate α → σ → Fate α → σ → Prop
  | .committed a, s, .committed a', s' => I s s' ∧ V a a'
  | .dropped a, _, .dropped a', _ => V a a'
  | _, _, _, _ => False

theorem abreast_imp {σ : Type} {Q Q' : α → σ → α → σ → Prop} {t t' : Tx σ ε α} {s s' : σ}
    (h : t.Abreast Q t' s s') (hQ : ∀ a s a' s', Q a s a' s' → Q' a s a' s') :
    t.Abreast Q' t' s s' := by
  induction t generalizing t' s s' with
  | pure a =>
    cases t' with
    | pure a' => exact hQ _ _ _ _ h
    | throw e => exact absurd h id
    | stmt lost f t' => exact absurd h id
  | throw e =>
    cases t' with
    | pure a' => exact absurd h id
    | throw e' => exact h
    | stmt lost f t' => exact absurd h id
  | stmt lost f t ih =>
    cases t' with
    | pure a' => exact absurd h id
    | throw e' => exact absurd h id
    | stmt lost' f' t' => exact ⟨h.1, ih s h.2⟩

/-! ## Transactions alike -/

section
variable {σ : Type} {I : σ → σ → Prop} {s s' : σ}

/-- the states correspond, and the values are related. -/
def Paired (I : σ → σ → Prop) (V : α → α → Prop) : α → σ → α → σ → Prop :=
  fun a s a' s' => I s s' ∧ V a a'

/-- what one statement leaves decides how the next one starts. -/
theorem alike_seq {Q : β → σ → β → σ → Prop} {V : α → α → Prop} {t t' : Tx σ ε α}
    {k k' : α → Tx σ ε β} (h : t.Abreast (Paired I V) t' s s')
    (hk : ∀ a a' s s', I s s' → V a a' → (k a).Abreast Q (k' a') s s') :
    (t >>= k).Abreast Q (t' >>= k') s s' :=
  abreast_bind (abreast_imp h fun _ _ _ _ h => hk _ _ _ _ h.1 h.2)

theorem alike_pure {V : α → α → Prop} {a a' : α} (h : I s s') (hV : V a a') :
    (Pure.pure a : Tx σ ε α).Abreast (Paired I V) (Pure.pure a') s s' := ⟨h, hV⟩

theorem alike_mark {lost : ε} (h : I s s') :
    (Tx.mark lost () : Tx σ ε Unit).Abreast (Paired I Eq) (.mark lost ()) s s' := ⟨rfl, h, rfl⟩

theorem alike_read {V : α → α → Prop} {lost : ε} {g g' : σ → α} (h : I s s')
    (hV : V (g s) (g' s')) : (Tx.read lost g).Abreast (Paired I V) (.read lost g') s s' :=
  ⟨rfl, h, hV⟩

theorem alike_change {V : α → α → Prop} {lost : ε} {f f' : σ → σ} {g g' : σ → α}
    (h : I (f s) (f' s')) (hV : V (g s) (g' s')) :
    (Tx.change lost f g).Abreast (Paired I V) (.change lost f' g') s s' := ⟨rfl, h, hV⟩

/-- a statement that both states allow, or both refuse. -/
theorem alike_attempt {V : α → α → Prop} {lost : ε} {f f' : σ → Except ε (α × σ)}
    (h : Likewise (fun x x' => I x.2 x'.2 ∧ V x.1 x'.1) (f s) (f' s')) :
    (Tx.attempt lost f).Abreast (Paired I V) (.attempt lost f') s s' := by
  refine abreast_attempt ?_
  rcases hf : f s with e | ⟨a, t⟩ <;> rcases hf' : f' s' with e' | ⟨a', t'⟩ <;> rw [hf, hf'] at h
  · exact .inl ⟨e, rfl, congrArg Except.error (Eq.symm h)⟩
  · exact absurd h id
  · exact absurd h id
  · exact .inr ⟨a, t, a', t', rfl, rfl, h⟩

theorem alike_check {b : Bool} {e : ε} (h : I s s') :
    (Tx.check b e : Tx σ ε Unit).Abreast (Paired I Eq) (.check b e) s s' :=
  abreast_check ⟨h, rfl⟩

theorem fates_commit {V : α → α → Prop} {lost : ε} {a a' : α} (h : I s s') (hV : V a a') :
    (Tx.commit lost a : Tx σ ε (Fate α)).Abreast (Fates I V) (.commit lost a') s s' :=
  ⟨rfl, h, hV⟩

theorem fates_rollback {V : α → α → Prop} {lost : ε} {a a' : α} (hV : V a a') :
    (Tx.rollback lost a : Tx σ ε (Fate α)).Abreast (Fates I V) (.rollback lost a') s s' :=
  ⟨rfl, hV⟩

theorem fates_drop {V : α → α → Prop} {a a' : α} (hV : V a a') :
    (Tx.drop a : Tx σ ε (Fate α)).Abreast (Fates I V) (.drop a') s s' := hV

end

/-- **Two transactions, statement by statement.** -/
theorem twin_transact {V : α → α → Prop} {fuse : Option Nat} {t t' : Tx S.State ε (Fate α)}
    (h : ∀ s s', L.state s s' → t.Abreast (Fates L.state V) t' s s') :
    (transact fuse t).Twin L (Likewise V) (transact fuse t') := by
  intro s s' hs
  refine settle_abreast (R := fun r s r' s' => L.state s s' ∧ Likewise V r r') fuse
    (fun e => ⟨hs, rfl⟩) (abreast_imp (h s s' hs) fun fate s₁ fate' s₁' hf => ?_)
  rcases fate with a | a <;> rcases fate' with a' | a'
  · exact hf
  · exact absurd hf id
  · exact absurd hf id
  · exact ⟨hs, hf⟩

end

/-! ## Pools -/

section
variable {S : Signature} {ε α τ : Type} {L : Likeness S}

/-- corresponding questions get corresponding answers. -/
def Likeness.Answers (L : Likeness S) (ans ans' : Nat → (q : S.Ask) → S.Answer q) : Prop :=
  ∀ n q q', L.ask q q' → L.answer q q' (ans n q) (ans' n q')

/-- some steps of twins that are answered alike. -/
theorem twin_advance {Q : Except ε α → Except ε α → Prop} {p p' : Prog S ε α} {s s' : S.State}
    {ans ans' : Nat → (q : S.Ask) → S.Answer q} (ha : L.Answers ans ans') (n : Nat)
    (h : p.Twin L Q p') (hs : L.state s s') :
    (advance ans n (p, s)).1.Twin L Q (advance ans' n (p', s')).1 ∧
      L.state (advance ans n (p, s)).2 (advance ans' n (p', s')).2 := by
  induction n generalizing p p' s s' with
  | zero => exact ⟨h, hs⟩
  | succ n ih =>
    cases p with
    | done r =>
      cases p' with
      | done r' => exact ⟨h, hs⟩
      | ask q p' => exact absurd h id
      | act f p' => exact absurd h id
    | ask q p =>
      cases p' with
      | done r' => exact absurd h id
      | ask q' p' => exact ih (h.2 _ _ (ha n q q' h.1)) hs
      | act f p' => exact absurd h id
    | act f p =>
      cases p' with
      | done r' => exact absurd h id
      | ask q' p' => exact absurd h id
      | act f' p' => exact ih (h s s' hs).2 (h s s' hs).1

variable (L) in
/-- two turns of the same kind: corresponding tasks start, or the same thread is answered alike. -/
inductive Turn.Like (T : τ → τ → Prop) : Turn S τ → Turn S τ → Prop where
  | start {t t'} : T t t' → Turn.Like T (.start t) (.start t')
  | run {ans ans'} (i n : Nat) : L.Answers ans ans' → Turn.Like T (.run i n ans) (.run i n ans')

variable (L) in
/-- two threads of twins. -/
structure Thread.Like (u u' : Thread S τ ε α) : Prop where
  rest : u.rest.Twin L (fun _ _ => True) u'.rest
  live : u'.live = u.live

variable (L) in
/-- two pools of twins over corresponding states. -/
structure Pool.Like (P P' : Pool S τ ε α) : Prop where
  threads : List.Forall₂ (Thread.Like L) P.threads P'.threads
  state : L.state P.state P'.state

/-- one turn. -/
theorem turn_like {T : τ → τ → Prop} {Y : System S τ ε α} {P P' : Pool S τ ε α} {x x' : Turn S τ}
    (hbody : ∀ {t t'}, T t t' → (Y.body t).Twin L (fun _ _ => True) (Y.body t'))
    (h : Pool.Like L P P') (hx : Turn.Like L T x x') :
    Pool.Like L (Pool.turn Y P x) (Pool.turn Y P' x') := by
  cases hx with
  | start ht =>
    exact ⟨List.rel_append (R := Thread.Like L) h.threads (.cons ⟨hbody ht, rfl⟩ .nil), h.state⟩
  | @run ans ans' i n ha =>
    simp only [Pool.turn]
    rcases getElem?_alike h.threads i with ⟨h1, h2⟩ | ⟨⟨t, p, b⟩, ⟨t', p', b'⟩, h1, h2, hrest, hlive⟩
    · rw [h1, h2]
      exact h
    · obtain rfl : b' = b := hlive
      rw [h1, h2]
      cases b' with
      | false => exact h
      | true =>
        obtain ⟨hp, hs⟩ := twin_advance ha n hrest h.state
        exact ⟨set_alike h.threads i ⟨hp, rfl⟩, hs⟩

/-! ## Histories -/

/-- one deed of a history: a turn, or a thread is dropped. -/
inductive Deed (S : Signature) (τ : Type) where
  | turn (x : Turn S τ)
  | drop (i : Nat)

namespace Pool
variable {Y : System S τ ε α}

/-- the pool after one deed; a thread that has ended is not dropped. -/
def deed (Y : System S τ ε α) (P : Pool S τ ε α) : Deed S τ → Pool S τ ε α
  | .turn x => turn Y P x
  | .drop i =>
    match P.threads[i]? with
    | some ⟨t, p, true⟩ =>
      if p.answer?.isNone then ⟨P.threads.set i ⟨t, p, false⟩, P.state⟩ else P
    | _ => P

/-- the pool after a history. -/
def perform (Y : System S τ ε α) (deeds : List (Deed S τ)) (P : Pool S τ ε α) : Pool S τ ε α :=
  deeds.foldl (deed Y) P

/-- one move is one deed. -/
theorem move_deed [∀ q, Nonempty (S.Answer q)] {P P' : Pool S τ ε α} (h : Move Y P P') :
    ∃ x, deed Y P x = P' := by
  classical
  cases h with
  | @spawned ts s t _ => exact ⟨.turn (.start t), rfl⟩
  | @asked ts s t q k a i hi _ =>
    -- the other questions are answered somehow.
    refine ⟨.turn (.run i 1 fun _ q' =>
      if h : q' = q then h ▸ a else Classical.choice inferInstance), ?_⟩
    simp only [deed, turn, hi, Prog.advance, dif_pos]
  | @acted ts s t f k i hi =>
    refine ⟨.turn (.run i 1 fun _ _ => Classical.choice inferInstance), ?_⟩
    simp only [deed, turn, hi, Prog.advance]
  | @dropped ts s t p i hi hp =>
    refine ⟨.drop i, ?_⟩
    simp only [deed, hi, hp, Option.isNone_none, if_true]

/-- **Every pool that is reached is reached by deeds.** -/
theorem reach_performed [∀ q, Nonempty (S.Answer q)] {P P' : Pool S τ ε α} (h : Reach Y P P') :
    ∃ deeds, perform Y deeds P = P' := by
  induction h with
  | refl => exact ⟨[], rfl⟩
  | tail _ hm ih =>
    obtain ⟨deeds, rfl⟩ := ih
    obtain ⟨x, rfl⟩ := move_deed hm
    exact ⟨deeds ++ [x], by rw [perform, List.foldl_append]; rfl⟩

end Pool

variable (L) in
/-- two deeds of the same kind. -/
inductive Deed.Like (T : τ → τ → Prop) : Deed S τ → Deed S τ → Prop where
  | turn {x x'} : Turn.Like L T x x' → Deed.Like T (.turn x) (.turn x')
  | drop (i : Nat) : Deed.Like T (.drop i) (.drop i)

/-- twins have both ended, or neither. -/
theorem twin_answered {Q : Except ε α → Except ε α → Prop} {p p' : Prog S ε α}
    (h : p.Twin L Q p') : p.answer?.isNone = p'.answer?.isNone := by
  cases p <;> cases p' <;> first | rfl | exact absurd h id

/-- one deed. -/
theorem deed_like {T : τ → τ → Prop} {Y : System S τ ε α} {P P' : Pool S τ ε α} {x x' : Deed S τ}
    (hbody : ∀ {t t'}, T t t' → (Y.body t).Twin L (fun _ _ => True) (Y.body t'))
    (h : Pool.Like L P P') (hx : Deed.Like L T x x') :
    Pool.Like L (Pool.deed Y P x) (Pool.deed Y P' x') := by
  cases hx with
  | turn hx => exact turn_like hbody h hx
  | drop i =>
    simp only [Pool.deed]
    rcases getElem?_alike h.threads i with ⟨h1, h2⟩ | ⟨⟨t, p, b⟩, ⟨t', p', b'⟩, h1, h2, hrest, hlive⟩
    · rw [h1, h2]
      exact h
    · obtain rfl : b' = b := hlive
      rw [h1, h2]
      cases b' with
      | false => exact h
      | true =>
        simp only [twin_answered hrest]
        split_ifs
        · exact ⟨set_alike h.threads i ⟨hrest, rfl⟩, h.state⟩
        · exact h

/-- **Histories of like deeds lead from like pools to like pools.** -/
theorem perform_like {T : τ → τ → Prop} {Y : System S τ ε α} {P P' : Pool S τ ε α}
    {deeds deeds' : List (Deed S τ)}
    (hbody : ∀ {t t'}, T t t' → (Y.body t).Twin L (fun _ _ => True) (Y.body t'))
    (h : Pool.Like L P P') (hx : List.Forall₂ (Deed.Like L T) deeds deeds') :
    Pool.Like L (Pool.perform Y deeds P) (Pool.perform Y deeds' P') := by
  induction hx generalizing P P' with
  | nil => exact h
  | cons hx _ ih => exact ih (deed_like hbody h hx)

end

end ChannelDigests.Lib
