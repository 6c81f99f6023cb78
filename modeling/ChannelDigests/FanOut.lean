import ChannelDigests.Rules
import ChannelDigests.Documents
import ChannelDigests.Lib.Tiles

/-!
# The windows of a fan-out

One occurrence makes one run for each owner who is due, and consecutive occurrences give an owner
windows without a gap and without an overlap.

* `activations`        when the enabled subscriptions of an owner were first activated;
* `activation_least`   the earliest of them is what the fan-out reads;
* `FansOut`            the runs of one occurrence;
* `Chain`              consecutive occurrences over the same subscriptions;
* `occurrences_tile`   **each occurrence makes its runs, and their windows tile**.
-/

namespace ChannelDigests
open Lib Prog

def week : Int := 7 * 24 * 3600 * second

/-- the first activations before `due` of the enabled subscriptions of an owner. -/
def activations (subscriptions : List Subscription) (due : Instant) (ownerId : Uuid) :
    Set Instant :=
  {t | ∃ s ∈ subscriptions, s.ownerId = ownerId ∧ s.enabled = true ∧ s.firstActivatedAt = t ∧
    t < due}

section
variable {subs : List Subscription} {due : Instant} {ownerId : Uuid}

theorem mem_dueOwners : ownerId ∈ dueOwners subs due ↔ (activations subs due ownerId).Nonempty := by
  unfold dueOwners
  rw [List.mem_insertionSort, List.mem_dedup, List.mem_map]
  constructor
  · intro ⟨s, hs, ho⟩
    obtain ⟨hs, hp⟩ := List.mem_filter.mp hs
    rw [Bool.and_eq_true, decide_eq_true_eq] at hp
    exact ⟨s.firstActivatedAt, s, hs, ho, hp.1, rfl, hp.2⟩
  · intro ⟨t, s, hs, ho, hen, ht, hlt⟩
    refine ⟨s, List.mem_filter.mpr ⟨hs, ?_⟩, ho⟩
    rw [Bool.and_eq_true, decide_eq_true_eq, ht]
    exact ⟨hen, hlt⟩

theorem dueOwners_nodup : (dueOwners subs due).Nodup :=
  (List.perm_insertionSort _ _).nodup_iff.mpr (List.nodup_dedup _)

/-- **The activation that the fan-out reads is the earliest.** -/
theorem activation_least (h : ownerId ∈ dueOwners subs due) :
    IsLeast (activations subs due ownerId) (activation subs due ownerId) := by
  have hmem : ∀ t, t ∈ ((subs.filter fun s =>
      s.enabled && s.firstActivatedAt < due && s.ownerId = ownerId).map (·.firstActivatedAt)) ↔
        t ∈ activations subs due ownerId := by
    intro t
    rw [List.mem_map]
    constructor
    · intro ⟨s, hs, ht⟩
      obtain ⟨hs, hp⟩ := List.mem_filter.mp hs
      rw [Bool.and_eq_true, Bool.and_eq_true, decide_eq_true_eq, decide_eq_true_eq] at hp
      exact ⟨s, hs, hp.2, hp.1.1, ht, ht ▸ hp.1.2⟩
    · intro ⟨s, hs, ho, hen, ht, hlt⟩
      refine ⟨s, List.mem_filter.mpr ⟨hs, ?_⟩, ht⟩
      rw [Bool.and_eq_true, Bool.and_eq_true, decide_eq_true_eq, decide_eq_true_eq, ht]
      exact ⟨⟨hen, hlt⟩, ho⟩
  rcases hmin : ((subs.filter fun s =>
      s.enabled && s.firstActivatedAt < due && s.ownerId = ownerId).map (·.firstActivatedAt)).min?
    with _ | a
  · obtain ⟨t, ht⟩ := mem_dueOwners.mp h
    have hnil := List.min?_eq_none_iff.mp hmin
    have := (hmem t).mpr ht
    rw [hnil] at this
    cases this
  · obtain ⟨ha, hle⟩ := List.min?_eq_some_iff.mp hmin
    rw [show activation subs due ownerId = a by unfold activation; rw [hmin]; rfl]
    exact ⟨(hmem a).mp ha, fun t ht => hle t ((hmem t).mpr ht)⟩

/-- the window of a due owner is not empty. -/
theorem scheduledStart_lt {previous : Instant} (hprev : previous < due)
    (howner : ownerId ∈ dueOwners subs due) :
    scheduledStart (activation subs due ownerId) previous due < due := by
  have hweek : due - 7 * 24 * 3600 * second < due := Int.sub_lt_self due (by decide)
  obtain ⟨-, -, -, -, -, hact⟩ := (activation_least howner).1
  exact max_lt hact (max_lt hprev hweek)

end

/-! ## One occurrence -/

/-- the runs that one occurrence makes: one for each owner who is due, of its window. -/
structure FansOut (o : OccurrenceRequest) (subs : List Subscription) (new : List Run) : Prop where
  due : ∀ ownerId, (activations subs o.dueAt ownerId).Nonempty →
    ∃ r, new.filter (fun r => r.ownerId = ownerId) = [r]
  others : ∀ ownerId, ¬ (activations subs o.dueAt ownerId).Nonempty →
    new.filter (fun r => r.ownerId = ownerId) = []
  scheduled : ∀ r ∈ new, r.trigger = .scheduled ∧ r.idempotencyKey = o.occurrenceKey
  ends : ∀ r ∈ new, r.windowEnd = o.dueAt
  starts : ∀ r ∈ new, ∃ a, IsLeast (activations subs o.dueAt r.ownerId) a ∧
    r.windowStart = max a (max o.previousDueAt (o.dueAt - week))
  nonempty : ∀ r ∈ new, r.windowStart < r.windowEnd

section
variable {m : Moment} {o : OccurrenceRequest} {subs : List Subscription}

/-- a fan-out of a new occurrence key appends the run of each owner. -/
theorem fannedOut_runs {owners : List Uuid} {n : Nat} {runs runs' : List Run}
    (hnodup : owners.Nodup)
    (hkey : ∀ r ∈ runs, r.idempotencyKey = o.occurrenceKey → r.ownerId ∉ owners)
    (h : FannedOut m o subs owners n runs runs') :
    ∃ new, runs' = runs ++ new ∧ new.map (·.ownerId) = owners ∧
      ∀ r ∈ new, ∃ runId, r = o.run subs runId r.ownerId m.now := by
  induction owners generalizing n runs with
  | nil => exact ⟨[], by rw [List.append_nil]; exact h, rfl, fun r hr => by cases hr⟩
  | cons ownerId owners ih =>
    obtain ⟨hno, hnodup⟩ := List.nodup_cons.mp hnodup
    obtain ⟨-, mid, hmid, hrest⟩ := h
    rcases hmid with ⟨-, r, hr, hnat⟩ | ⟨rfl, -, -⟩
    · -- no run has this natural key: the occurrence key is new to the owner.
      obtain ⟨howner, -, hk, -⟩ : r.ownerId = ownerId ∧ r.trigger = .scheduled ∧
          r.idempotencyKey = o.occurrenceKey ∧ _ := by
        simpa [Run.naturalKey, OccurrenceRequest.run, Run.accepted] using hnat
      exact absurd (howner ▸ List.mem_cons_self) (hkey r hr hk)
    · have hkey' : ∀ r ∈ runs ++ [o.run subs (m.ids n) ownerId m.now],
          r.idempotencyKey = o.occurrenceKey → r.ownerId ∉ owners := by
        intro r hr hk
        rcases List.mem_append.mp hr with hr | hr
        · exact fun hmem => hkey r hr hk (List.mem_cons_of_mem _ hmem)
        · rw [List.mem_singleton.mp hr]
          exact hno
      obtain ⟨new, rfl, howners, hnew⟩ := ih hnodup hkey' hrest
      refine ⟨o.run subs (m.ids n) ownerId m.now :: new, by simp, ?_, fun r hr => ?_⟩
      · rw [List.map_cons, howners]
        rfl
      · rcases List.mem_cons.mp hr with rfl | hr
        · exact ⟨m.ids n, rfl⟩
        · exact hnew r hr

/-- an owner of a list without repetition has one run, any other none. -/
theorem filter_owner {new : List Run} (hnodup : (new.map (·.ownerId)).Nodup) (ownerId : Uuid) :
    (ownerId ∈ new.map (·.ownerId) → ∃ r, new.filter (fun r => r.ownerId = ownerId) = [r]) ∧
      (ownerId ∉ new.map (·.ownerId) → new.filter (fun r => r.ownerId = ownerId) = []) := by
  constructor
  · intro h
    obtain ⟨r, hr, rfl⟩ := List.mem_map.mp h
    have hu : KeyUnique Run.ownerId new := hnodup
    exact ⟨r, hu.filter_eq hr⟩
  · intro h
    refine List.filter_eq_nil_iff.mpr fun r hr he => h ?_
    exact List.mem_map.mpr ⟨r, hr, of_decide_eq_true he⟩

/-- **The runs of a fan-out.** -/
theorem fannedOut_fansOut {runs runs' : List Run} (hprev : o.previousDueAt < o.dueAt)
    (hkey : ∀ r ∈ runs, r.idempotencyKey ≠ o.occurrenceKey)
    (h : FannedOut m o subs (dueOwners subs o.dueAt) 1 runs runs') :
    ∃ new, runs' = runs ++ new ∧ FansOut o subs new := by
  obtain ⟨new, hruns, howners, hnew⟩ := fannedOut_runs dueOwners_nodup
    (fun r hr hk => absurd hk (hkey r hr)) h
  have hdue : ∀ r ∈ new, r.ownerId ∈ dueOwners subs o.dueAt := fun r hr => by
    rw [← howners]
    exact List.mem_map_of_mem hr
  have hnodup : (new.map (·.ownerId)).Nodup := howners ▸ dueOwners_nodup
  refine ⟨new, hruns, fun ownerId hd => ?_, fun ownerId hd => ?_, fun r hr => ?_, fun r hr => ?_,
    fun r hr => ?_, fun r hr => ?_⟩
  · exact (filter_owner hnodup ownerId).1 (howners ▸ mem_dueOwners.mpr hd)
  · exact (filter_owner hnodup ownerId).2 fun hmem => hd (mem_dueOwners.mp (howners ▸ hmem))
  · obtain ⟨runId, he⟩ := hnew r hr
    rw [he]
    exact ⟨rfl, rfl⟩
  · obtain ⟨runId, he⟩ := hnew r hr
    rw [he]
    rfl
  · obtain ⟨runId, he⟩ := hnew r hr
    exact ⟨_, activation_least (hdue r hr), congrArg Run.windowStart he⟩
  · obtain ⟨runId, he⟩ := hnew r hr
    rw [congrArg Run.windowStart he, congrArg Run.windowEnd he]
    exact scheduledStart_lt hprev (hdue r hr)

end

section
variable {C : Contracts} {E : Type} {env : E → (q : Question) → q.Answer → E → Prop}
  {o : OccurrenceRequest} {d d' : Db} {e e' : E} {r : Except CoordinatorError IntakeOutcome}

/-- **One occurrence leaves everything unchanged, or makes its runs.** -/
theorem acceptOccurrence_fansOut (hprev : o.previousDueAt < o.dueAt)
    (hkey : ∀ r ∈ d.runs, r.idempotencyKey ≠ o.occurrenceKey)
    (h : Runs (S := service) Eq env (acceptOccurrence C o) d e r d' e') :
    (d' = d ∧ r ≠ .ok .applied) ∨
      ∃ new, d'.runs = d.runs ++ new ∧ FansOut o d.subscriptions new := by
  have hfan : ∀ m s' s'', d = s' → OccurrenceFanned m s' s'' o →
      ∃ new, s''.runs = d.runs ++ new ∧ FansOut o d.subscriptions new := by
    intro m s' s'' hs hf
    subst hs
    obtain ⟨runs, ob, hruns, -, rfl⟩ := hf.effect
    exact fannedOut_fansOut hprev hkey hruns
  have hsafe := acceptOccurrence_rule (C := C) (alone env) (o := o) (s := d) (e := e)
    (G := fun _ _ _ => True)
    (Q := fun r d' => (d' = d ∧ r ≠ .ok .applied) ∨
      ∃ new, d'.runs = d.runs ++ new ∧ FansOut o d.subscriptions new)
    (.inl ⟨rfl, by simp⟩) (fun _ _ hs _ => ⟨trivial, .inl ⟨hs.symm, by simp⟩⟩)
    (fun _ hs _ => ⟨trivial, .inl ⟨hs.symm, by simp⟩⟩)
    fun m s' s'' hs hf => ⟨trivial, .inr (hfan m s' s'' hs hf)⟩
  obtain ⟨_, rfl, hq⟩ := hsafe.runs (fun _ => rfl) Eq.trans h
  exact hq

/-! ## Consecutive occurrences -/

/-- the runs that consecutive occurrences make from `p` on, over the same subscriptions; the last
of them is due at `q`. -/
inductive Chain (C : Contracts) (env : E → (q : Question) → q.Answer → E → Prop)
    (subs : List Subscription) (p : Instant) : List Run → Instant → Prop where
  | start : Chain C env subs p [] p
  | occurrence {o d d' e e' runs new} : Chain C env subs p runs o.previousDueAt →
      o.previousDueAt < o.dueAt → o.dueAt - o.previousDueAt ≤ week → d.subscriptions = subs →
      (∀ r ∈ d.runs, r.idempotencyKey ≠ o.occurrenceKey) →
      Runs (S := service) Eq env (acceptOccurrence C o) d e (.ok .applied) d' e' →
      d'.runs = d.runs ++ new → Chain C env subs p (runs ++ new) o.dueAt

/-- the windows of an owner's runs. -/
def windowsOf (runs : List Run) (ownerId : Uuid) : List (Instant × Instant) :=
  (runs.filter fun r => r.ownerId = ownerId).map fun r => (r.windowStart, r.windowEnd)

theorem windowsOf_append (runs new : List Run) (ownerId : Uuid) :
    windowsOf (runs ++ new) ownerId = windowsOf runs ownerId ++ windowsOf new ownerId := by
  unfold windowsOf
  rw [List.filter_append, List.map_append]

/-- the first activations of an owner's enabled subscriptions, at any time. -/
def everActivated (subs : List Subscription) (ownerId : Uuid) : Set Instant :=
  {t | ∃ s ∈ subs, s.ownerId = ownerId ∧ s.enabled = true ∧ s.firstActivatedAt = t}

section
variable {subs : List Subscription} {ownerId : Uuid} {a p q : Instant} {new runs : List Run}

/-- the windows of one occurrence, when it comes at most a week after the last. -/
theorem FansOut.tile (h : FansOut o subs new) (ha : IsLeast (everActivated subs ownerId) a)
    (hprev : o.previousDueAt < o.dueAt) (hgap : o.dueAt - o.previousDueAt ≤ week) :
    Tiles (windowsOf new ownerId) (max o.previousDueAt a) (max o.dueAt a) := by
  obtain ⟨s, hs, howner, hen, hact⟩ := ha.1
  by_cases hlt : a < o.dueAt
  · have hleast : IsLeast (activations subs o.dueAt ownerId) a :=
      ⟨⟨s, hs, howner, hen, hact, hlt⟩, fun t ⟨s, hs, ho, hen, ht, _⟩ => ha.2 ⟨s, hs, ho, hen, ht⟩⟩
    obtain ⟨r, hr⟩ := h.due ownerId ⟨a, hleast.1⟩
    have hmem : r ∈ new ∧ r.ownerId = ownerId := by
      have hin : r ∈ new.filter fun r => r.ownerId = ownerId := by
        rw [hr]
        exact List.mem_singleton.mpr rfl
      simpa using List.mem_filter.mp hin
    obtain ⟨a', ha', hstart⟩ := h.starts r hmem.1
    rw [hmem.2] at ha'
    rw [ha'.unique hleast] at hstart
    have hstart' : r.windowStart = max o.previousDueAt a := by
      have hback : o.dueAt - week ≤ o.previousDueAt :=
        Int.sub_right_le_of_le_add (Int.le_add_of_sub_left_le hgap)
      rw [hstart, max_eq_left hback, max_comm]
    unfold windowsOf
    rw [hr, List.map_singleton, hstart', h.ends r hmem.1, max_eq_left hlt.le]
    exact .single _ _
  · have hnone : ¬ (activations subs o.dueAt ownerId).Nonempty := by
      intro ⟨t, s, hs, ho, hen, ht, htlt⟩
      exact hlt (lt_of_le_of_lt (ha.2 ⟨s, hs, ho, hen, ht⟩) htlt)
    have hle : o.dueAt ≤ a := not_lt.mp hlt
    unfold windowsOf
    rw [h.others ownerId hnone, max_eq_right hle, max_eq_right (hprev.le.trans hle)]
    exact .nil le_rfl

/-- **The windows of consecutive occurrences tile.** -/
theorem Chain.tile (h : Chain C env subs p runs q) (ha : IsLeast (everActivated subs ownerId) a) :
    p ≤ q ∧ Tiles (windowsOf runs ownerId) (max p a) (max q a) := by
  induction h with
  | start => exact ⟨le_rfl, .nil le_rfl⟩
  | @occurrence o d d' e e' runs new _ hprev hgap hsubs hkey hrun hnew ih =>
    obtain ⟨hle, htiles⟩ := ih
    rcases acceptOccurrence_fansOut hprev hkey hrun with ⟨-, hne⟩ | ⟨new', hnew', hfan⟩
    · exact absurd rfl hne
    · obtain rfl : new' = new := List.append_cancel_left (hnew'.symm.trans hnew)
      rw [hsubs] at hfan
      rw [windowsOf_append]
      exact ⟨hle.trans hprev.le, htiles.append (max_le_max_right a hle)
        (max_le_max_right a hprev.le) (hfan.tile ha hprev hgap)⟩

/-- an owner without an enabled subscription has no window. -/
theorem Chain.none (h : Chain C env subs p runs q) (hno : everActivated subs ownerId = ∅) :
    windowsOf runs ownerId = [] := by
  induction h with
  | start => rfl
  | @occurrence o d d' e e' runs new _ hprev _ hsubs hkey hrun hnew ih =>
    rcases acceptOccurrence_fansOut hprev hkey hrun with ⟨-, hne⟩ | ⟨new', hnew', hfan⟩
    · exact absurd rfl hne
    · obtain rfl : new' = new := List.append_cancel_left (hnew'.symm.trans hnew)
      rw [hsubs] at hfan
      have hnone : ¬ (activations subs o.dueAt ownerId).Nonempty := by
        intro ⟨t, s, hs, ho, hen, ht, _⟩
        have hmem : t ∈ everActivated subs ownerId := ⟨s, hs, ho, hen, ht⟩
        rw [hno] at hmem
        exact hmem
      rw [windowsOf_append, ih]
      unfold windowsOf
      rw [hfan.others ownerId hnone]
      rfl

end

/-- **Each occurrence makes its runs, and their windows tile.**  An occurrence of a new key leaves
everything unchanged or makes one run for each owner who is due; and over consecutive occurrences
with gaps of at most a week the windows of an owner are disjoint and cover the time from the first
previous occurrence, or the activation if it is later, to the last one. -/
theorem occurrences_tile :
    (∀ {o : OccurrenceRequest} {d d' : Db} {e e' : E} {r : Except CoordinatorError IntakeOutcome},
      o.previousDueAt < o.dueAt → (∀ r ∈ d.runs, r.idempotencyKey ≠ o.occurrenceKey) →
      Runs (S := service) Eq env (acceptOccurrence C o) d e r d' e' →
      d' = d ∨ ∃ new, d'.runs = d.runs ++ new ∧ FansOut o d.subscriptions new) ∧
    ∀ {subs : List Subscription} {p q : Instant} {runs : List Run} (ownerId : Uuid),
      Chain C env subs p runs q →
      (∀ a, IsLeast (everActivated subs ownerId) a →
        Tiles (windowsOf runs ownerId) (max p a) q) ∧
      (everActivated subs ownerId = ∅ → windowsOf runs ownerId = []) := by
  refine ⟨fun hprev hkey h => ?_, fun ownerId h => ⟨fun a ha => (h.tile ha).2.to_end, h.none⟩⟩
  rcases acceptOccurrence_fansOut hprev hkey h with ⟨hd, -⟩ | hnew
  · exact .inl hd
  · exact .inr hnew

end

namespace Sample

/-- a weekly occurrence, and a subscription first activated in its week. -/
def weekly : OccurrenceRequest :=
  ⟨1, 0, "schedule-occurrence:1", 0, week, 5, 7, .ru⟩

def subscribers : Db := { Db.empty with subscriptions := [⟨1, 7, 11, second, true⟩] }

def fanned : Action CoordinatorError IntakeOutcome × Db :=
  Prog.advance (answers 5 1000 ⟨[], none⟩) 4 (acceptOccurrence contracts weekly, subscribers)

theorem fanned_runs : Runs (S := service) Eq (fun (_ : Unit) _ _ _ => True)
    (acceptOccurrence contracts weekly) subscribers () (.ok .applied) fanned.2 () :=
  advance_runs (fun _ _ => trivial) (by decide +kernel)

theorem fanned_tiles : fanned.2 ≠ subscribers ∧
    Tiles (windowsOf fanned.2.runs 7) (max 0 second) week := by
  have hchain : Chain contracts (fun (_ : Unit) _ _ _ => True) subscribers.subscriptions 0
      ([] ++ fanned.2.runs) week :=
    .occurrence (o := weekly) .start (by decide) (by decide) rfl (fun r hr => by cases hr)
      fanned_runs rfl
  refine ⟨by decide +kernel, (occurrences_tile.2 7 hchain).1 second ⟨?_, fun t ht => ?_⟩⟩
  · exact ⟨⟨1, 7, 11, second, true⟩, List.mem_singleton.mpr rfl, rfl, rfl, rfl⟩
  · obtain ⟨s, hs, -, -, rfl⟩ := ht
    rw [List.mem_singleton.mp hs]

end Sample

end ChannelDigests
