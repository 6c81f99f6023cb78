import ChannelDigests.Lib.Program
import Mathlib.Data.List.Forall2

/-!
# Two programs side by side

What is to be shown of two programs at once, or of one program in two states: that they ask alike
and end alike.

* `Likeness`             which states, questions and answers correspond;
* `Prog.Twin`            two programs that ask corresponding questions and take corresponding steps;
* `twin_next`, `twin_bind`   the rules of sequencing;
* `Prog.converse`        a program alone, answered by a party that knows what was asked before;
* `Prog.Twin.converse`   **twins that are answered alike ask alike and end alike**.
-/

set_option linter.unusedVariables false

namespace ChannelDigests.Lib

/-- the states, questions and answers of two programs that correspond. -/
structure Likeness (S : Signature) where
  state : S.State → S.State → Prop
  ask : S.Ask → S.Ask → Prop
  answer : (q q' : S.Ask) → S.Answer q → S.Answer q' → Prop

section
variable {S : Signature} {ε ε' ε₁ ε₁' α α' β β' : Type} {L : Likeness S}

/-- `p` and `p'` ask corresponding questions and take corresponding steps, and their outcomes
satisfy `Q`. -/
def Prog.Twin (L : Likeness S) (Q : Except ε α → Except ε' α' → Prop) :
    Prog S ε α → Prog S ε' α' → Prop
  | .done r, .done r' => Q r r'
  | .ask q k, .ask q' k' =>
    L.ask q q' ∧ ∀ a a', L.answer q q' a a' → (k a).Twin L Q (k' a')
  | .act f k, .act f' k' =>
    ∀ s s', L.state s s' → L.state (f s) (f' s') ∧ (k s).Twin L Q (k' s')
  | _, _ => False

/-- the rule of sequencing. -/
theorem twin_next {Q : Except ε α → Except ε' α' → Prop}
    {Q₁ : Except ε₁ β → Except ε₁' β' → Prop} {p : Prog S ε α} {p' : Prog S ε' α'}
    {k : Except ε α → Prog S ε₁ β} {k' : Except ε' α' → Prog S ε₁' β'} (h : p.Twin L Q p')
    (hk : ∀ r r', Q r r' → (k r).Twin L Q₁ (k' r')) : (p.next k).Twin L Q₁ (p'.next k') := by
  induction p generalizing p' with
  | done r =>
    cases p' with
    | done r' => exact hk r r' h
    | ask q p' => exact absurd h id
    | act f p' => exact absurd h id
  | ask q p ih =>
    cases p' with
    | done r' => exact absurd h id
    | ask q' p' => exact ⟨h.1, fun a a' ha => ih a (h.2 a a' ha)⟩
    | act f p' => exact absurd h id
  | act f p ih =>
    cases p' with
    | done r' => exact absurd h id
    | ask q' p' => exact absurd h id
    | act f' p' => exact fun s s' hs => ⟨(h s s' hs).1, ih s (h s s' hs).2⟩

/-- the rule of sequencing where an error ends the whole. -/
theorem twin_bind {Q : Except ε α → Except ε' α' → Prop} {Q₁ : Except ε β → Except ε' β' → Prop}
    {p : Prog S ε α} {p' : Prog S ε' α'} {k : α → Prog S ε β} {k' : α' → Prog S ε' β'}
    (h : p.Twin L Q p') (hk : ∀ r r', Q r r' → match r, r' with
      | .ok a, .ok a' => (k a).Twin L Q₁ (k' a')
      | .error e, .error e' => Q₁ (.error e) (.error e')
      | _, _ => False) : (p >>= k).Twin L Q₁ (p' >>= k') := by
  refine twin_next h fun r r' hr => ?_
  have := hk r r' hr
  cases r with
  | ok a =>
    cases r' with
    | ok a' => exact this
    | error e' => exact absurd this id
  | error e =>
    cases r' with
    | ok a' => exact absurd this id
    | error e' => exact this

theorem Prog.Twin.imp {Q Q' : Except ε α → Except ε' α' → Prop} {p : Prog S ε α}
    {p' : Prog S ε' α'} (h : p.Twin L Q p') (hQ : ∀ r r', Q r r' → Q' r r') :
    p.Twin L Q' p' := by
  induction p generalizing p' with
  | done r =>
    cases p' with
    | done r' => exact hQ r r' h
    | ask q p' => exact absurd h id
    | act f p' => exact absurd h id
  | ask q p ih =>
    cases p' with
    | done r' => exact absurd h id
    | ask q' p' => exact ⟨h.1, fun a a' ha => ih a (h.2 a a' ha)⟩
    | act f p' => exact absurd h id
  | act f p ih =>
    cases p' with
    | done r' => exact absurd h id
    | ask q' p' => exact absurd h id
    | act f' p' => exact fun s s' hs => ⟨(h s s' hs).1, ih s (h s s' hs).2⟩

/-! ## Conversations -/

/-- the outcome of a program alone and the questions it has asked, when each is answered by what
was asked before it. -/
def Prog.converse (answer : List S.Ask → (q : S.Ask) → S.Answer q) :
    Prog S ε α → S.State → List S.Ask → Except ε α × List S.Ask
  | .done r, _, asked => (r, asked)
  | .ask q k, s, asked => (k (answer asked q)).converse answer s (asked ++ [q])
  | .act f k, s, asked => (k s).converse answer (f s) asked

/-- **Twins that are answered alike ask alike and end alike.** -/
theorem Prog.Twin.converse {Q : Except ε α → Except ε' α' → Prop} {p : Prog S ε α}
    {p' : Prog S ε' α'} (h : p.Twin L Q p') {answer answer' : List S.Ask → (q : S.Ask) → S.Answer q}
    (ha : ∀ asked asked' q q', List.Forall₂ L.ask asked asked' → L.ask q q' →
      L.answer q q' (answer asked q) (answer' asked' q')) {s s' : S.State} (hs : L.state s s')
    {asked asked' : List S.Ask} (hasked : List.Forall₂ L.ask asked asked') :
    Q (p.converse answer s asked).1 (p'.converse answer' s' asked').1 ∧
      List.Forall₂ L.ask (p.converse answer s asked).2 (p'.converse answer' s' asked').2 := by
  induction p generalizing p' s s' asked asked' with
  | done r =>
    cases p' with
    | done r' => exact ⟨h, hasked⟩
    | ask q p' => exact absurd h id
    | act f p' => exact absurd h id
  | ask q p ih =>
    cases p' with
    | done r' => exact absurd h id
    | ask q' p' =>
      refine ih _ (h.2 _ _ (ha asked asked' q q' hasked h.1)) hs ?_
      exact List.rel_append (R := L.ask) hasked (.cons h.1 .nil)
    | act f p' => exact absurd h id
  | act f p ih =>
    cases p' with
    | done r' => exact absurd h id
    | ask q' p' => exact absurd h id
    | act f' p' =>
      obtain ⟨hs', hk⟩ := h s s' hs
      exact ih s hk hs' hasked

end

end ChannelDigests.Lib
