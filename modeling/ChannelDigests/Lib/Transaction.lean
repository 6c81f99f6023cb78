import Mathlib.Logic.Basic
import Mathlib.Tactic.Common

/-!
# Transactions as trees of statements

`Tx σ ε α` is one database transaction over the state `σ`: a tree of statements, each of which
may be lost.  A lost statement ends the transaction with the error that the caller maps it to,
and a transaction that ends with an error leaves the state as it was.

* `Tx.run`     runs a transaction; the fuse is the number of statements that still succeed;
* `Fate`       a transaction that ends without an error is committed or dropped;
* `settle`     the outcome of the whole transaction: the answer and the state it leaves;
* `Tx.wp`      the weakest precondition, one equation per statement;
* `settle_of_wp`  the precondition is sound for every fuse.
-/

set_option linter.unusedVariables false

namespace ChannelDigests.Lib

/-- a transaction over the state `σ` with errors `ε` -/
inductive Tx (σ ε α : Type) where
  | pure (a : α)
  | throw (e : ε)
  | stmt (lost : ε) (f : σ → σ) (k : σ → Tx σ ε α)

/-- what becomes of a transaction that ends without an error -/
inductive Fate (α : Type) where
  | committed (a : α)
  | dropped (a : α)

namespace Tx

variable {σ ε ε' α β : Type}

/-- run `t`, then `k` on its value. -/
def bind : Tx σ ε α → (α → Tx σ ε β) → Tx σ ε β
  | .pure a, k => k a
  | .throw e, _ => .throw e
  | .stmt lost f t, k => .stmt lost f fun s => (t s).bind k

instance : Monad (Tx σ ε) where
  pure := Tx.pure
  bind := Tx.bind

/-- one statement that reads the state and changes it by `f`. -/
def change (lost : ε) (f : σ → σ) (g : σ → α) : Tx σ ε α :=
  .stmt lost f fun s => .pure (g s)

/-- one statement that only reads. -/
def read (lost : ε) (g : σ → α) : Tx σ ε α :=
  .stmt lost id fun s => .pure (g s)

/-- one statement that the database may refuse. -/
def attempt (lost : ε) (f : σ → Except ε (α × σ)) : Tx σ ε α :=
  .stmt lost (fun s => match f s with | .ok x => x.2 | .error _ => s) fun s =>
    match f s with
    | .ok x => .pure x.1
    | .error e => .throw e

/-- end the transaction with `e` unless `b` holds; no statement is sent. -/
def check (b : Bool) (e : ε) : Tx σ ε Unit := if b then .pure () else .throw e

/-- a statement that changes no row: `begin`, `commit` or `rollback`. -/
def mark (lost : ε) (a : α) : Tx σ ε α := .stmt lost id fun _ => .pure a

def commit (lost : ε) (a : α) : Tx σ ε (Fate α) := mark lost (.committed a)
def rollback (lost : ε) (a : α) : Tx σ ε (Fate α) := mark lost (.dropped a)

/-- the transaction goes out of scope without a commit. -/
def drop (a : α) : Tx σ ε (Fate α) := .pure (.dropped a)

/-- run `t`; the fuse is the number of statements that succeed before one is lost. -/
def run : Tx σ ε α → Option Nat → σ → Except ε (α × σ)
  | .pure a, _, s => .ok (a, s)
  | .throw e, _, _ => .error e
  | .stmt lost _ _, some 0, _ => .error lost
  | .stmt _ f k, some (n + 1), s => (k s).run (some n) (f s)
  | .stmt _ f k, none, s => (k s).run none (f s)

/-- `t` ends in `Q` or with an error in `E`, whichever statement is lost (none is, unless
`faulty`). -/
def wp (faulty : Prop) : Tx σ ε α → (α → σ → Prop) → (ε → Prop) → σ → Prop
  | .pure a, Q, _, s => Q a s
  | .throw e, _, E, _ => E e
  | .stmt lost f k, Q, E, s => (faulty → E lost) ∧ (k s).wp faulty Q E (f s)

variable {faulty : Prop} {Q Q' : α → σ → Prop} {E E' : ε → Prop} {s : σ}

@[simp] theorem wp_pure (a : α) : (Pure.pure a : Tx σ ε α).wp faulty Q E s ↔ Q a s := Iff.rfl

@[simp] theorem wp_pure' (a : α) : (Tx.pure a : Tx σ ε α).wp faulty Q E s ↔ Q a s := Iff.rfl

@[simp] theorem wp_throw (e : ε) : (Tx.throw e : Tx σ ε α).wp faulty Q E s ↔ E e := Iff.rfl

@[simp] theorem wp_bind (t : Tx σ ε α) (k : α → Tx σ ε β) (Q : β → σ → Prop) :
    (t >>= k).wp faulty Q E s ↔ t.wp faulty (fun a s' => (k a).wp faulty Q E s') E s := by
  show (t.bind k).wp faulty Q E s ↔ _
  induction t generalizing s with
  | pure a => exact Iff.rfl
  | throw e => exact Iff.rfl
  | stmt lost f t ih => exact and_congr_right fun _ => ih s

@[simp] theorem wp_change (lost : ε) (f : σ → σ) (g : σ → α) :
    (change lost f g).wp faulty Q E s ↔ (faulty → E lost) ∧ Q (g s) (f s) := Iff.rfl

@[simp] theorem wp_read (lost : ε) (g : σ → α) :
    (read lost g).wp faulty Q E s ↔ (faulty → E lost) ∧ Q (g s) s := Iff.rfl

@[simp] theorem wp_attempt (lost : ε) (f : σ → Except ε (α × σ)) :
    (attempt lost f).wp faulty Q E s ↔
      (faulty → E lost) ∧ (∀ a s', f s = .ok (a, s') → Q a s') ∧ ∀ e, f s = .error e → E e := by
  simp only [attempt, wp]
  rcases h : f s with e | ⟨a, s'⟩
  · simp [wp]
  · simp [wp]

@[simp] theorem wp_check (b : Bool) (e : ε) (Q : Unit → σ → Prop) :
    (check b e).wp faulty Q E s ↔ (b = true → Q () s) ∧ (b = false → E e) := by
  cases b <;> simp [check]

@[simp] theorem wp_commit (lost : ε) (a : α) (Q : Fate α → σ → Prop) :
    (commit lost a).wp faulty Q E s ↔ (faulty → E lost) ∧ Q (.committed a) s := Iff.rfl

@[simp] theorem wp_rollback (lost : ε) (a : α) (Q : Fate α → σ → Prop) :
    (rollback lost a).wp faulty Q E s ↔ (faulty → E lost) ∧ Q (.dropped a) s := Iff.rfl

@[simp] theorem wp_drop (a : α) (Q : Fate α → σ → Prop) :
    (drop a).wp faulty Q E s ↔ Q (.dropped a) s := Iff.rfl

@[simp] theorem wp_mark (lost : ε) (a : α) :
    (mark lost a).wp faulty Q E s ↔ (faulty → E lost) ∧ Q a s := Iff.rfl

theorem wp_ite (c : Prop) [Decidable c] (t u : Tx σ ε α) :
    (if c then t else u).wp faulty Q E s ↔
      (c → t.wp faulty Q E s) ∧ (¬c → u.wp faulty Q E s) := by
  by_cases h : c <;> simp [h]

theorem wp_mono (t : Tx σ ε α) (hQ : ∀ a s, Q a s → Q' a s) (hE : ∀ e, E e → E' e) :
    t.wp faulty Q E s → t.wp faulty Q' E' s := by
  induction t generalizing s with
  | pure a => exact hQ a s
  | throw e => exact hE e
  | stmt lost f t ih => exact And.imp (fun h hf => hE _ (h hf)) (ih s)

/-- two preconditions of one transaction hold together. -/
theorem wp_and (t : Tx σ ε α) (h : t.wp faulty Q E s) (h' : t.wp faulty Q' E' s) :
    t.wp faulty (fun a s => Q a s ∧ Q' a s) (fun e => E e ∧ E' e) s := by
  induction t generalizing s with
  | pure a => exact ⟨h, h'⟩
  | throw e => exact ⟨h, h'⟩
  | stmt lost f t ih => exact ⟨fun hf => ⟨h.1 hf, h'.1 hf⟩, ih s h.2 h'.2⟩

/-- the precondition is met by a run with any fuse. -/
theorem run_of_wp (t : Tx σ ε α) (fuse : Option Nat) (hf : fuse ≠ none → faulty)
    (h : t.wp faulty Q E s) :
    (∀ a s', t.run fuse s = .ok (a, s') → Q a s') ∧ ∀ e, t.run fuse s = .error e → E e := by
  induction t generalizing s fuse with
  | pure a => simpa [run] using h
  | throw e => simpa [run] using h
  | stmt lost f t ih =>
    obtain ⟨hl, hk⟩ := h
    rcases fuse with _ | _ | n
    · exact ih s none hf hk
    · simpa [run] using hl (hf (by simp))
    · exact ih s (some n) (fun _ => hf (by simp)) hk

end Tx

/-- what the caller sees of a transaction and the state that it leaves. -/
def settle {σ ε α : Type} (t : Tx σ ε (Fate α)) (fuse : Option Nat) (s : σ) : Except ε α × σ :=
  match t.run fuse s with
  | .ok (.committed a, s') => (.ok a, s')
  | .ok (.dropped a, _) => (.ok a, s)
  | .error e => (.error e, s)

section
variable {σ ε α : Type}

/-- the precondition of a whole transaction from `s`: `Q` for the answer and the state it
leaves, which is `s` unless it is committed. -/
def Tx.closes (faulty : Prop) (t : Tx σ ε (Fate α)) (Q : Except ε α → σ → Prop) (s : σ) : Prop :=
  t.wp faulty
    (fun fate s' => match fate with | .committed a => Q (.ok a) s' | .dropped a => Q (.ok a) s)
    (fun e => Q (.error e) s) s

theorem Tx.closes_mono {faulty : Prop} {t : Tx σ ε (Fate α)} {Q Q' : Except ε α → σ → Prop} {s : σ}
    (h : t.closes faulty Q s) (hQ : ∀ r s', Q r s' → Q' r s') : t.closes faulty Q' s := by
  refine Tx.wp_mono t (fun fate s' hq => ?_) (fun e hq => hQ _ _ hq) h
  cases fate with
  | committed a => exact hQ _ _ hq
  | dropped a => exact hQ _ _ hq

theorem Tx.closes_and {faulty : Prop} {t : Tx σ ε (Fate α)} {Q Q' : Except ε α → σ → Prop} {s : σ}
    (h : t.closes faulty Q s) (h' : t.closes faulty Q' s) :
    t.closes faulty (fun r s' => Q r s' ∧ Q' r s') s := by
  refine Tx.wp_mono t (fun fate s' hq => ?_) (fun e hq => hq) (Tx.wp_and t h h')
  cases fate <;> exact hq

/-- a transaction that always answers `a` has the effect of that answer. -/
theorem Tx.closes_effect {faulty : Prop} {t : Tx σ ε (Fate α)} {a : α} {P : σ → Prop} {s : σ}
    (h : t.closes faulty (fun r _ => r = .ok a) s)
    (h' : t.closes faulty (fun r s' => r = .ok a → P s') s) :
    t.closes faulty (fun r s' => r = .ok a ∧ P s') s :=
  Tx.closes_mono (Tx.closes_and h h') fun _ _ hr => ⟨hr.1, hr.2 hr.1⟩

/-- **The precondition of a transaction is sound**, whichever statement is lost. -/
theorem settle_of_closes {faulty : Prop} {t : Tx σ ε (Fate α)} {Q : Except ε α → σ → Prop} {s : σ}
    (fuse : Option Nat) (hf : fuse ≠ none → faulty) (h : t.closes faulty Q s) :
    Q (settle t fuse s).1 (settle t fuse s).2 := by
  obtain ⟨hok, herr⟩ := Tx.run_of_wp t fuse hf h
  unfold settle
  rcases hr : t.run fuse s with e | ⟨fate, s'⟩
  · exact herr e hr
  · cases fate with
    | committed a => exact hok (.committed a) s' hr
    | dropped a => exact hok (.dropped a) s' hr

end

end ChannelDigests.Lib
