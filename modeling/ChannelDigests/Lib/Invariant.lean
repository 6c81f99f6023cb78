import ChannelDigests.Lib.Pool

/-!
# Invariants of programs

A state invariant that every statement keeps is kept by every transaction, by every program made of
such transactions, and by every pool of such programs, whatever the environment answers and
whatever the others do.

* `Tx.Keeps`      the transaction keeps the invariant, whichever statement is lost;
* `Prog.Keeps`    every atomic step of the program keeps it;
* `Keeps.exec`    an execution among others that keep the invariant keeps it;
* `Keeps.reach`   **a pool of programs that keep an invariant keeps it**.
-/

namespace ChannelDigests.Lib

/-! ## Transactions -/

section
variable {σ ε α β : Type} {I : σ → Prop}

/-- the transaction leads from states of `I` to states of `I`. -/
def Tx.Keeps (I : σ → Prop) (t : Tx σ ε α) : Prop :=
  ∀ s, I s → t.wp True (fun _ s' => I s') (fun _ => True) s

namespace Tx

theorem keeps_pure (a : α) : (Pure.pure a : Tx σ ε α).Keeps I := fun _ h => h

theorem keeps_throw (e : ε) : (Tx.throw e : Tx σ ε α).Keeps I := fun _ _ => trivial

theorem Keeps.bind {t : Tx σ ε α} {k : α → Tx σ ε β} (ht : t.Keeps I) (hk : ∀ a, (k a).Keeps I) :
    (t >>= k).Keeps I := by
  intro s hs
  rw [wp_bind]
  exact wp_mono t (fun a s' h => hk a s' h) (fun _ h => h) (ht s hs)

theorem Keeps.ite {c : Prop} [Decidable c] {t u : Tx σ ε α} (ht : c → t.Keeps I)
    (hu : ¬c → u.Keeps I) : (if c then t else u).Keeps I := by
  by_cases h : c
  · rw [if_pos h]
    exact ht h
  · rw [if_neg h]
    exact hu h

theorem keeps_change {lost : ε} {f : σ → σ} {g : σ → α} (h : ∀ s, I s → I (f s)) :
    (change lost f g).Keeps I := fun s hs => ⟨fun _ => trivial, h s hs⟩

theorem keeps_read (lost : ε) (g : σ → α) : (read lost g).Keeps I :=
  fun _ hs => ⟨fun _ => trivial, hs⟩

theorem keeps_attempt {lost : ε} {f : σ → Except ε (α × σ)}
    (h : ∀ s a s', I s → f s = .ok (a, s') → I s') : (attempt lost f).Keeps I := by
  intro s hs
  rw [wp_attempt]
  exact ⟨fun _ => trivial, fun a s' he => h s a s' hs he, fun _ _ => trivial⟩

theorem keeps_check (b : Bool) (e : ε) : (check b e : Tx σ ε Unit).Keeps I := by
  intro s hs
  rw [wp_check]
  exact ⟨fun _ => hs, fun _ => trivial⟩

theorem keeps_mark (lost : ε) (a : α) : (mark lost a : Tx σ ε α).Keeps I :=
  fun _ hs => ⟨fun _ => trivial, hs⟩

theorem keeps_commit (lost : ε) (a : α) : (commit lost a : Tx σ ε (Fate α)).Keeps I :=
  keeps_mark lost _

theorem keeps_rollback (lost : ε) (a : α) : (rollback lost a : Tx σ ε (Fate α)).Keeps I :=
  keeps_mark lost _

theorem keeps_drop (a : α) : (drop a : Tx σ ε (Fate α)).Keeps I := fun _ hs => hs

/-- a transaction that keeps the invariant leaves it, committed or not. -/
theorem Keeps.settle {t : Tx σ ε (Fate α)} (ht : t.Keeps I) (fuse : Option Nat) {s : σ} (hs : I s) :
    I (settle t fuse s).2 := by
  have hcloses : t.closes True (fun _ s' => I s') s := by
    refine wp_mono t (fun fate s' h => ?_) (fun _ _ => hs) (ht s hs)
    cases fate with
    | committed a => exact h
    | dropped a => exact hs
  exact settle_of_closes fuse (fun _ => trivial) hcloses

end Tx

end

/-! ## Programs -/

section
variable {S : Signature} {ε ε' α β : Type} {I : S.State → Prop}

/-- every atomic step leads from states of `I` to states of `I`. -/
def Prog.Keeps (I : S.State → Prop) : Prog S ε α → Prop
  | .done _ => True
  | .ask _ k => ∀ a, (k a).Keeps I
  | .act f k => (∀ s, I s → I (f s)) ∧ ∀ s, (k s).Keeps I

namespace Prog

theorem keeps_done (r : Except ε α) : (Prog.done r : Prog S ε α).Keeps I := trivial

theorem keeps_pure (a : α) : (Pure.pure a : Prog S ε α).Keeps I := trivial

theorem keeps_fail (e : ε) : (fail e : Prog S ε α).Keeps I := trivial

theorem keeps_lift (x : Except ε α) : (lift x : Prog S ε α).Keeps I := trivial

theorem keeps_question (q : S.Ask) : (question q : Prog S ε (S.Answer q)).Keeps I := fun _ => trivial

theorem Keeps.next {p : Prog S ε α} {k : Except ε α → Prog S ε' β} (hp : p.Keeps I)
    (hk : ∀ r, (k r).Keeps I) : (p.next k).Keeps I := by
  induction p with
  | done r => exact hk r
  | ask q p ih => exact fun a => ih a (hp a)
  | act f p ih => exact ⟨hp.1, fun s => ih s (hp.2 s)⟩

theorem Keeps.bind {p : Prog S ε α} {k : α → Prog S ε β} (hp : p.Keeps I)
    (hk : ∀ a, (k a).Keeps I) : (p >>= k).Keeps I := by
  refine hp.next fun r => ?_
  cases r with
  | ok a => exact hk a
  | error e => trivial

theorem Keeps.outcome {p : Prog S ε α} (hp : p.Keeps I) :
    (p.outcome : Prog S ε' (Except ε α)).Keeps I := hp.next fun _ => trivial

theorem Keeps.mapError {p : Prog S ε α} {h : ε → ε'} (hp : p.Keeps I) : (p.mapError h).Keeps I :=
  hp.next fun _ => trivial

theorem Keeps.ite {c : Prop} [Decidable c] {p q : Prog S ε α} (hp : c → p.Keeps I)
    (hq : ¬c → q.Keeps I) : (if c then p else q).Keeps I := by
  by_cases h : c
  · rw [if_pos h]
    exact hp h
  · rw [if_neg h]
    exact hq h

theorem keeps_transact {fuse : Option Nat} {t : Tx S.State ε (Fate α)} (ht : t.Keeps I) :
    (transact fuse t).Keeps I := ⟨fun _ hs => ht.settle fuse hs, fun _ => trivial⟩

/-- an execution of a program that keeps the invariant keeps it, if the others do. -/
theorem Keeps.exec {E : Type} {R : S.State → S.State → Prop}
    {env : E → (q : S.Ask) → S.Answer q → E → Prop} {c d : Prog S ε α × S.State × E}
    (hp : c.1.Keeps I) (hR : ∀ {s s'}, R s s' → I s → I s') (hI : I c.2.1) (hx : Exec R env c d) :
    I d.2.1 ∧ d.1.Keeps I := by
  induction hx with
  | refl => exact ⟨hI, hp⟩
  | step _ hs ih =>
    obtain ⟨h, hk⟩ := ih
    cases hs with
    | asked _ => exact ⟨h, hk _⟩
    | acted => exact ⟨hk.1 _ h, hk.2 _⟩
  | other _ hr ih => exact ⟨hR hr ih.1, ih.2⟩

end Prog

/-! ## Pools -/

/-- **A pool of programs that keep an invariant keeps it**, whatever the order of the moves. -/
theorem Prog.Keeps.reach {τ : Type} {Y : System S τ ε α} {P P' : Pool S τ ε α}
    (hbody : ∀ t, (Y.body t).Keeps I) (hP : ∀ u ∈ P.threads, u.rest.Keeps I) (hI : I P.state)
    (h : Pool.Reach Y P P') : I P'.state ∧ ∀ u ∈ P'.threads, u.rest.Keeps I := by
  -- the rest of every thread keeps the invariant, since it is the rest of a program that does.
  induction h with
  | refl => exact ⟨hI, hP⟩
  | tail _ hm ih =>
    obtain ⟨hs, hts⟩ := ih
    cases hm with
    | @spawned ts s t _ =>
      refine ⟨hs, fun u hu => ?_⟩
      rcases List.mem_append.mp hu with hu | hu
      · exact hts u hu
      · rw [List.mem_singleton.mp hu]
        exact hbody t
    | @asked ts s t q k a i hi _ =>
      have hk := hts _ (List.mem_of_getElem? hi)
      refine ⟨hs, fun u hu => ?_⟩
      rcases List.mem_or_eq_of_mem_set hu with hu | rfl
      · exact hts u hu
      · exact hk a
    | @acted ts s t f k i hi =>
      have hk := hts _ (List.mem_of_getElem? hi)
      refine ⟨hk.1 _ hs, fun u hu => ?_⟩
      rcases List.mem_or_eq_of_mem_set hu with hu | rfl
      · exact hts u hu
      · exact hk.2 s
    | @dropped ts s t p i hi _ =>
      have hp := hts _ (List.mem_of_getElem? hi)
      refine ⟨hs, fun u hu => ?_⟩
      rcases List.mem_or_eq_of_mem_set hu with hu | rfl
      · exact hts u hu
      · exact hp

end

end ChannelDigests.Lib
