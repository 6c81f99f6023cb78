import ChannelDigests.Transactions
import ChannelDigests.Bus

/-!
# Rules of the programs

One rule a program of the intake and the coordinator, for any interference `R`, guarantee `G` and
outcome `Q`: what has to hold at each of its reads and transactions so that the program is safe.
The states between which a program reads are chained by `R`.

* `safe_transaction`, `safe_statement`, `safe_readDb`   one atomic step;
* `reject_rule`, `acceptSubscription_rule`, `acceptRun_rule`, `acceptOccurrence_rule`   the intake;
* `settleCompletion_rule`, `settleFailure_rule`         the Knowledge facts.
-/

set_option linter.unusedSectionVars false

namespace ChannelDigests
open Lib Prog

/-- what surrounds a program: others change the state by the preorder `R`, and statements are
lost only when `faulty`. -/
structure Surrounds {E : Type} (R : Db → Db → Prop)
    (env : E → (q : Question) → q.Answer → E → Prop) (faulty : Prop) : Prop where
  refl : ∀ a, R a a
  trans : ∀ {a b c}, R a b → R b c → R a c
  faults : ∀ e m e', env e .moment m e' → m.fuse ≠ none → faulty

/-- alone, with statements that may be lost. -/
theorem alone {E : Type} (env : E → (q : Question) → q.Answer → E → Prop) :
    Surrounds (Eq (α := Db)) env True :=
  ⟨fun _ => rfl, Eq.trans, fun _ _ _ _ _ => trivial⟩

section
variable {C : Contracts} {E : Type} {R : Db → Db → Prop}
  {env : E → (q : Question) → q.Answer → E → Prop} {faulty : Prop} (w : Surrounds R env faulty)
include w

section
variable {ε α : Type} {G : Db → Db → Option (Except ε α) → Prop} {s : Db} {e : E}
  {Q : Except ε α → Db → E → Prop}

theorem safe_transaction {t : Moment → Sql ε (Fate α)}
    (h : ∀ m s' e', env e .moment m e' → R s s' →
      (t m).closes faulty (fun r s'' => G s' s'' (some r) ∧ Q r s'' e') s') :
    Safe (S := service) R env G (transaction t) Q s e := by
  intro s₁ hs₁ m e' he
  exact safe_transact (w.faults e m e' he) fun s₂ hs₂ => h m s₂ e' he (w.trans hs₁ hs₂)

/-- one statement that cannot be refused. -/
theorem safe_change {x : ε} {f : Moment → Db → Db} {g : Moment → Db → α}
    (hE : ∀ s', R s s' → faulty → G s' s' (some (.error x)) ∧ ∀ e', Q (.error x) s' e')
    (h : ∀ m s' e', env e .moment m e' → R s s' →
      G s' (f m s') (some (.ok (g m s'))) ∧ Q (.ok (g m s')) (f m s') e') :
    Safe (S := service) R env G (statement fun m => .change x (f m) (g m)) Q s e := by
  refine safe_transaction w fun m s' e' he hs' => ?_
  exact ⟨fun hfa => ⟨(hE s' hs' hfa).1, (hE s' hs' hfa).2 e'⟩, h m s' e' he hs'⟩

end

/-- one read outside a transaction. -/
theorem safe_read {ε α β : Type} {x : ε} {g : Moment → Db → α} {k : α → Action ε β}
    {H : Db → Db → Option (Except ε β) → Prop} {Q : Except ε β → Db → E → Prop} {s : Db} {e : E}
    (hE : ∀ s', R s s' → faulty → H s' s' (some (.error x)) ∧ ∀ e', Q (.error x) s' e')
    (h : ∀ m s' e', env e .moment m e' → R s s' →
      H s' s' (k (g m s')).answer? ∧ Safe (S := service) R env H (k (g m s')) Q s' e') :
    Safe (S := service) R env H ((statement fun m => .read x (g m)) >>= k) Q s e := by
  refine (safe_next (S := service) _ _ _).mpr ?_
  exact safe_change (f := fun _ d => d) w (fun s' hs' hfa => hE s' hs' hfa)
    fun m s' e' he hs' => h m s' e' he hs'

/-! ## Intake -/

section
variable {G : Db → Db → Option (Except IntakeError IntakeOutcome) → Prop}
  {Q : Except IntakeError IntakeOutcome → Db → Prop} {s : Db} {e : E}

theorem reject_rule {r : Rejection}
    (hE : ∀ x s', R s s' →
      faulty ∨ s'.inboxHolds r.messageId r.subject (.text r.semanticKey) = false →
      G s' s' (some (.error x)) ∧ Q (.error x) s')
    (hR : ∀ s', R s s' → s'.inboxHolds r.messageId r.subject (.text r.semanticKey) = true →
      G s' s' (some (.ok .replayed)) ∧ Q (.ok .replayed) s')
    (hA : ∀ m s' s'', R s s' → CommandRejected m s' s'' r →
      G s' s'' (some (.ok .applied)) ∧ Q (.ok .applied) s'') :
    Safe (S := service) R env G (reject C r) (fun x d _ => Q x d) s e :=
  safe_transaction w fun m s' _ _ hs' =>
    rejectTx_closes (fun x => hE x s' hs') (hR s' hs') fun s'' => hA m s' s'' hs'

/-- the first transaction of a command, then its rejection when it is refused. -/
theorem verdict_rule {t : Moment → Sql IntakeError (Fate Verdict)} {r : Rejection}
    (hN : ∀ s', R s s' → G s' s' none)
    (hT : ∀ m s', R s s' → (t m).closes faulty (fun x s'' => match x with
      | .ok (.outcome o) => G s' s'' (some (.ok o)) ∧ Q (.ok o) s''
      | .ok .refused => s'' = s'
      | .error x => G s' s'' (some (.error x)) ∧ Q (.error x) s'') s')
    (hE : ∀ x s', R s s' →
      faulty ∨ s'.inboxHolds r.messageId r.subject (.text r.semanticKey) = false →
      G s' s' (some (.error x)) ∧ Q (.error x) s')
    (hR : ∀ s', R s s' → s'.inboxHolds r.messageId r.subject (.text r.semanticKey) = true →
      G s' s' (some (.ok .replayed)) ∧ Q (.ok .replayed) s')
    (hA : ∀ m s' s'', R s s' → CommandRejected m s' s'' r →
      G s' s'' (some (.ok .applied)) ∧ Q (.ok .applied) s'') :
    Safe (S := service) R env G
      (transaction t >>= fun v => match v with
        | .outcome o => pure o
        | .refused => reject C r) (fun x d _ => Q x d) s e := by
  refine (safe_next (S := service) _ _ _).mpr (safe_transaction w fun m s' e' _ hs' => ?_)
  refine Tx.wp_mono _ (fun fate s'' h => ?_) (fun x h => h) (hT m s' hs')
  have hrefused : ∀ d, d = s' → G s' d none ∧
      Safe (S := service) R env G (reject C r) (fun x d _ => Q x d) d e' := by
    rintro d rfl
    exact ⟨hN d hs', reject_rule w (fun x s₁ h => hE x s₁ (w.trans hs' h))
      (fun s₁ h => hR s₁ (w.trans hs' h)) fun m s₁ s₂ h => hA m s₁ s₂ (w.trans hs' h)⟩
  rcases fate with (o | _) | (o | _)
  · exact h
  · exact hrefused s'' h
  · exact h
  · exact hrefused s' rfl

/-- what a typed command may do: nothing, a rejection, or what `applied` says. -/
theorem acceptSubscription_rule {messageId : Uuid} {payload : C.Bytes}
    {command : SubscriptionSetRequested} (hc : C.subscription.fromSlice payload = some command)
    (hN : ∀ s', R s s' → G s' s' none)
    (hE : ∀ x s', R s s' →
      faulty ∨ s'.inboxHolds messageId .subscription (.text command.idempotencyKey) = false →
      G s' s' (some (.error x)) ∧ Q (.error x) s')
    (hR : ∀ s', R s s' → s'.inboxHolds messageId .subscription (.text command.idempotencyKey) =
      true → G s' s' (some (.ok .replayed)) ∧ Q (.ok .replayed) s')
    (hJ : ∀ m s' s'' reason, R s s' → CommandRejected m s' s''
      ((Command.subscription messageId command).rejection (C.bytesDigest payload) reason) →
      G s' s'' (some (.ok .applied)) ∧ Q (.ok .applied) s'')
    (hA : ∀ m s' s'', R s s' →
      SubscriptionApplied m s' s'' command messageId (C.bytesDigest payload) →
      G s' s'' (some (.ok .applied)) ∧ Q (.ok .applied) s'') :
    Safe (S := service) R env G (acceptSubscription C messageId payload) (fun x d _ => Q x d) s e := by
  simp only [acceptSubscription, hc]
  split_ifs
  · exact reject_rule w hE hR fun m s' s'' hs' h => hJ m s' s'' .commandInvalid hs' h
  · refine verdict_rule w hN (fun m s' hs' => ?_) hE hR
      fun m s' s'' hs' h => hJ m s' s'' .subscriptionLimit hs' h
    exact subscriptionTx_closes (fun x => hE x s' hs') (hR s' hs') (fun _ => rfl)
      fun s'' => hA m s' s'' hs'

theorem acceptRun_rule {messageId : Uuid} {payload : C.Bytes} {command : RunRequested}
    (hc : C.run.fromSlice payload = some command) (hN : ∀ s', R s s' → G s' s' none)
    (hE : ∀ x s', R s s' →
      faulty ∨ s'.inboxHolds messageId .run (.text command.idempotencyKey) = false →
      G s' s' (some (.error x)) ∧ Q (.error x) s')
    (hR : ∀ s', R s s' → s'.inboxHolds messageId .run (.text command.idempotencyKey) = true →
      G s' s' (some (.ok .replayed)) ∧ Q (.ok .replayed) s')
    (hJ : ∀ m s' s'' reason, R s s' → CommandRejected m s' s''
      ((Command.run messageId command).rejection (C.bytesDigest payload) reason) →
      G s' s'' (some (.ok .applied)) ∧ Q (.ok .applied) s'')
    (hA : ∀ m s' s'', R s s' →
      RunCreated m s' s'' command messageId (C.bytesDigest payload) ∨
        RunRepeated m s' s'' command messageId (C.bytesDigest payload) →
      G s' s'' (some (.ok .applied)) ∧ Q (.ok .applied) s'') :
    Safe (S := service) R env G (acceptRun C messageId payload) (fun x d _ => Q x d) s e := by
  simp only [acceptRun, hc]
  split_ifs
  · exact reject_rule w hE hR fun m s' s'' hs' h => hJ m s' s'' .commandInvalid hs' h
  · refine verdict_rule w hN (fun m s' hs' => ?_) hE hR
      fun m s' s'' hs' h => hJ m s' s'' .commandInvalid hs' h
    exact runTx_closes (fun x => hE x s' hs') (hR s' hs') (fun _ => rfl)
      (fun s'' h => hA m s' s'' hs' (.inl h)) fun s'' h => hA m s' s'' hs' (.inr h)

end

/-! ## The coordinator -/

section
variable {G : Db → Db → Option (Except CoordinatorError IntakeOutcome) → Prop}
  {Q : Except CoordinatorError IntakeOutcome → Db → Prop} {s : Db} {e : E}

theorem acceptOccurrence_rule {o : OccurrenceRequest} (hI : Q (.error .invalid) s)
    (hE : ∀ x s', R s s' →
      faulty ∨ s'.inboxHolds o.messageId .occurrence (.text o.occurrenceKey) = false →
      G s' s' (some (.error x)) ∧ Q (.error x) s')
    (hR : ∀ s', R s s' → s'.inboxHolds o.messageId .occurrence (.text o.occurrenceKey) = true →
      G s' s' (some (.ok .replayed)) ∧ Q (.ok .replayed) s')
    (hA : ∀ m s' s'', R s s' → OccurrenceFanned m s' s'' o →
      G s' s'' (some (.ok .applied)) ∧ Q (.ok .applied) s'') :
    Safe (S := service) R env G (acceptOccurrence C o) (fun x d _ => Q x d) s e := by
  unfold acceptOccurrence
  split_ifs
  · exact hI
  · exact safe_transaction w fun m s' _ _ hs' =>
      occurrenceTx_closes (fun x => hE x s' hs') (hR s' hs') fun s'' => hA m s' s'' hs'

theorem settleCompletion_rule {messageId : Uuid} {completion : C.Bytes}
    (hI : Q (.error .invalid) s)
    (hE : ∀ x s', R s s' → G s' s' (some (.error x)) ∧ Q (.error x) s')
    (hN : ∀ s', R s s' → G s' s' none)
    (hS : ∀ fact analysisId s₁ s₂ stored, C.completed.fromSlice completion = some fact →
      fact.analysisRef = some analysisId → R s s₁ → R s₁ s₂ →
      s₂.resultEvidence fact.digestResultId = some stored →
      fact.matches analysisId
        (completionOutcome fact.omittedCount (s₁.incompleteFlag fact.digestRunId fact.owner))
        stored = true →
      G s₂ s₂ (some (.ok .replayed)) ∧ Q (.ok .replayed) s₂)
    (hT : ∀ fact analysisId m s₁ s₂ s₃ s₄ r mf, C.completed.fromSlice completion = some fact →
      fact.analysisRef = some analysisId → R s s₁ → R s₁ s₂ → R s₂ s₃ → R s₃ s₄ →
      s₂.resultEvidence fact.digestResultId = none →
      s₃.durable fact.digestRunId fact.owner = some (r, mf) → fact.consistent (r, mf) = true →
      (settleCompletionTx C fact analysisId messageId (C.bytesDigest completion)
        (s₁.incompleteFlag fact.digestRunId fact.owner) m).closes faulty
        (fun x s' => G s₄ s' (some x) ∧ Q x s') s₄) :
    Safe (S := service) R env G (settleCompletion C messageId completion) (fun x d _ => Q x d) s e := by
  unfold settleCompletion
  split
  · exact hI
  next fact hfact =>
  split_ifs
  · exact hI
  split
  · exact hI
  next analysisId hid =>
  have hE' : ∀ {s₁ : Db}, R s s₁ → ∀ s', R s₁ s' → faulty →
      G s' s' (some (.error .storage)) ∧ ∀ _ : E, Q (.error .storage) s' :=
    fun h s' h' _ => ⟨(hE _ s' (w.trans h h')).1, fun _ => (hE _ s' (w.trans h h')).2⟩
  refine safe_read w (hE' (w.refl s)) fun _ s₁ _ _ h₁ => ⟨hN s₁ h₁, ?_⟩
  refine safe_read w (hE' h₁) fun _ s₂ _ _ h₂ => ?_
  rcases hev : s₂.resultEvidence fact.digestResultId with _ | stored
  · refine ⟨hN s₂ (w.trans h₁ h₂), ?_⟩
    refine safe_read w (hE' (w.trans h₁ h₂)) fun _ s₃ _ _ h₃ => ?_
    have h03 := w.trans (w.trans h₁ h₂) h₃
    rcases hdu : s₃.durable fact.digestRunId fact.owner with _ | ⟨r, mf⟩
    · exact hE _ s₃ h03
    · simp only []
      split_ifs with hcons
      · exact hE _ s₃ h03
      · refine ⟨hN s₃ h03, safe_transaction w fun m s₄ _ _ h₄ => ?_⟩
        exact hT fact analysisId m s₁ s₂ s₃ s₄ r mf hfact hid h₁ h₂ h₃ h₄ hev hdu (by simpa using hcons)
  · simp only []
    split_ifs with hnull hm
    · exact hE _ s₂ (w.trans h₁ h₂)
    · exact hS fact analysisId s₁ s₂ stored hfact hid h₁ h₂ hev hm
    · exact hE _ s₂ (w.trans h₁ h₂)

theorem settleFailure_rule {messageId : Uuid} {failure : C.Bytes} (hI : Q (.error .invalid) s)
    (hE : ∀ x s', R s s' → G s' s' (some (.error x)) ∧ Q (.error x) s')
    (hN : ∀ s', R s s' → G s' s' none)
    (hS : ∀ fact s₁ r mf, C.failed.fromSlice failure = some fact → R s s₁ →
      s₁.durable fact.digestRunId fact.owner = some (r, mf) → r.state = .failed →
      G s₁ s₁ (some (.ok .replayed)) ∧ Q (.ok .replayed) s₁)
    (hT : ∀ fact m s₁ s₂ r mf, C.failed.fromSlice failure = some fact → R s s₁ → R s₁ s₂ →
      s₁.durable fact.digestRunId fact.owner = some (r, mf) → r.state = .waitingRecap →
      fact.manifestDigest = mf.sha256 →
      (settleFailureTx C fact mf.manifestId messageId (C.bytesDigest failure) m).closes faulty
        (fun x s' => G s₂ s' (some x) ∧ Q x s') s₂) :
    Safe (S := service) R env G (settleFailure C messageId failure) (fun x d _ => Q x d) s e := by
  unfold settleFailure
  split
  · exact hI
  next fact hfact =>
  split_ifs
  · exact hI
  refine safe_read w (fun s' h _ => ⟨(hE _ s' h).1, fun _ => (hE _ s' h).2⟩)
    fun _ s₁ _ _ h₁ => ?_
  rcases hdu : s₁.durable fact.digestRunId fact.owner with _ | ⟨r, mf⟩
  · exact hE _ s₁ h₁
  · simp only []
    split_ifs with hfailed hcons
    · exact hS fact s₁ r mf hfact h₁ hdu hfailed
    · exact hE _ s₁ h₁
    · simp only [not_or, not_not] at hcons
      refine ⟨hN s₁ h₁, safe_transaction w fun m s₂ _ _ h₂ => ?_⟩
      exact hT fact m s₁ s₂ r mf hfact h₁ h₂ hdu hcons.1 hcons.2

end

end

end ChannelDigests
