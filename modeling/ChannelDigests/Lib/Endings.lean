import ChannelDigests.Lib.Pool

/-!
# How threads end

* `Pool.Ends`           a move by which a thread of a task ends with an answer;
* `reach_decides`       an answer that a program gives by an atomic step only, in a whole pool;
* `reach_started`       every thread was started;
* `Discipline.enrich`   a discipline whose guarantee says more;
* `Discipline.maintain`   a discipline with one more invariant of its steps;
* `Pool.Ends.guar`      the move by which a thread ends satisfies the guarantee;
* `reach_origin`        a thread began with the program of its task;
* `reach_ends`          a thread that has answered ended by a move;
* `turn_ends`           a turn of one step that ends a thread;
* `turn_answers`        a thread that runs alone, answered always alike, ends.
-/

namespace ChannelDigests.Lib
open Pool

section
variable {S : Signature} {τ ε α : Type} {Y : System S τ ε α} {P P' : Pool S τ ε α} {t : τ}
  {r : Except ε α}

/-- a move by which a thread of the task ends with the answer. -/
structure Pool.Ends (Y : System S τ ε α) (P P' : Pool S τ ε α) (t : τ) (r : Except ε α) : Prop where
  move : Move Y P P'
  thread : ∃ (i : Nat) (u v : Thread S τ ε α), P.threads[i]? = some u ∧
    P'.threads[i]? = some v ∧ u.task = t ∧ u.Running ∧ v.Answered r

/-- a thread that runs has not answered. -/
theorem Thread.Running.not_answered {u : Thread S τ ε α} (h : u.Running) : ¬ u.Answered r := by
  intro ha
  have hnone := h.2
  rw [ha.2] at hnone
  cases hnone

/-- **A running thread still decides** what its program decides by atomic steps. -/
theorem reach_decides {W : τ → Except ε α → Prop} (hbody : ∀ t, (Y.body t).Decides (W t))
    {s : S.State} (h : Reach Y ⟨[], s⟩ P) :
    ∀ u ∈ P.threads, u.Running → u.rest.Decides (W u.task) := by
  induction h with
  | refl => exact fun u hu => absurd hu (by simp)
  | @tail P₁ P₂ _ hm ih =>
    intro u hu hrun
    cases hm with
    | @spawned ts s t ht =>
      rcases List.mem_append.mp hu with hu | hu
      · exact ih u hu hrun
      · obtain rfl := List.mem_singleton.mp hu
        exact hbody t
    | @asked ts s t q k a i hi ha =>
      rcases List.mem_or_eq_of_mem_set hu with hu | rfl
      · exact ih u hu hrun
      · have hask : (Prog.ask q k).Decides (W t) := ih _ (List.mem_of_getElem? hi) ⟨rfl, rfl⟩
        exact hask a
    | @acted ts s t f k i hi =>
      rcases List.mem_or_eq_of_mem_set hu with hu | rfl
      · exact ih u hu hrun
      · have hact : (Prog.act f k).Decides (W t) := ih _ (List.mem_of_getElem? hi) ⟨rfl, rfl⟩
        refine (hact s).resolve_left ?_
        rintro ⟨r, hr⟩
        exact hrun.not_answered ⟨rfl, hr⟩
    | @dropped ts s t p i hi hp =>
      rcases List.mem_or_eq_of_mem_set hu with hu | rfl
      · exact ih u hu hrun
      · cases hrun.1

/-- every thread was started in some pool. -/
theorem reach_started {s : S.State} (h : Reach Y ⟨[], s⟩ P) :
    ∀ u ∈ P.threads, ∃ ts, Y.starts ts u.task := by
  induction h with
  | refl => exact fun u hu => absurd hu (by simp)
  | @tail P₁ P₂ _ hm ih =>
    intro u hu
    cases hm with
    | @spawned ts s t ht =>
      rcases List.mem_append.mp hu with hu | hu
      · exact ih u hu
      · obtain rfl := List.mem_singleton.mp hu
        exact ⟨ts, ht⟩
    | asked i hi =>
      rcases List.mem_or_eq_of_mem_set hu with hu | rfl
      · exact ih u hu
      · have hold := ih _ (List.mem_of_getElem? hi)
        exact hold
    | acted i hi =>
      rcases List.mem_or_eq_of_mem_set hu with hu | rfl
      · exact ih u hu
      · have hold := ih _ (List.mem_of_getElem? hi)
        exact hold
    | dropped i hi =>
      rcases List.mem_or_eq_of_mem_set hu with hu | rfl
      · exact ih u hu
      · have hold := ih _ (List.mem_of_getElem? hi)
        exact hold

/-- the thread that ends was started. -/
theorem Pool.Ends.started {s : S.State} (he : Ends Y P P' t r) (h : Reach Y ⟨[], s⟩ P) :
    ∃ ts, Y.starts ts t := by
  obtain ⟨i, u, v, hu, -, rfl, -, -⟩ := he.thread
  exact reach_started h u (List.mem_of_getElem? hu)

/-- the discipline whose guarantee says `G` as well. -/
def Discipline.enrich (D : Discipline Y) {G : τ → S.State → S.State → Option (Except ε α) → Prop}
    (hbody : ∀ {ts t s}, Y.starts ts t → D.Inv s →
      (Y.body t).Safe (D.rely t) (Y.env t) (G t) (fun _ _ _ => True) s ()) : Discipline Y where
  Inv := D.Inv
  rely := D.rely
  guar t s s' o := D.guar t s s' o ∧ G t s s' o
  post := D.post
  Beside := D.Beside
  beside_symm := D.beside_symm
  beside_starts := D.beside_starts
  rely_refl := D.rely_refl
  rely_trans := D.rely_trans
  body_safe hs hI := ((D.body_safe hs hI).and (hbody hs hI)).imp fun _ _ _ h => h.1
  guar_inv hI h := D.guar_inv hI h.1
  guar_rely hb hI h := D.guar_rely hb hI h.1
  post_stable hI h hp := D.post_stable hI h.1 hp

/-- the discipline with one more invariant, which every guaranteed step keeps. -/
def Discipline.maintain (D : Discipline Y) {I : S.State → Prop}
    (h : ∀ {t s s' o}, D.Inv s → D.guar t s s' o → I s → I s') : Discipline Y where
  Inv s := D.Inv s ∧ I s
  rely := D.rely
  guar := D.guar
  post := D.post
  Beside := D.Beside
  beside_symm := D.beside_symm
  beside_starts := D.beside_starts
  rely_refl := D.rely_refl
  rely_trans := D.rely_trans
  body_safe hs hI := D.body_safe hs hI.1
  guar_inv hI hg := ⟨D.guar_inv hI.1 hg, h hI.1 hg hI.2⟩
  guar_rely hb hI hg := D.guar_rely hb hI.1 hg
  post_stable hI hg hp := D.post_stable hI.1 hg hp

/-- **The move by which a thread ends satisfies the guarantee**, when the answer is given by an
atomic step only. -/
theorem Pool.Ends.guar {D : Discipline Y} {W : τ → Except ε α → Prop} (he : Ends Y P P' t r)
    (h : D.Sound P) (hd : ∀ u ∈ P.threads, u.Running → u.rest.Decides (W u.task)) (hW : W t r) :
    D.guar t P.state P'.state (some r) := by
  obtain ⟨hm, i, u, v, hu, hv, rfl, hrun, hans⟩ := he
  have same : v ≠ u := by
    rintro rfl
    exact hrun.not_answered hans
  cases hm with
  | @spawned ts s t ht =>
    rw [List.getElem?_append_left (List.getElem?_eq_some_iff.mp hu).1, hu] at hv
    exact absurd (Option.some.inj hv).symm same
  | @asked ts s t q k a j hj ha =>
    by_cases hij : j = i
    · subst hij
      obtain rfl := Option.some.inj (hj.symm.trans hu)
      rw [List.getElem?_set_self (List.getElem?_eq_some_iff.mp hj).1] at hv
      obtain rfl := Option.some.inj hv
      have hask : (Prog.ask q k).Decides (W t) := hd _ (List.mem_of_getElem? hj) hrun
      have hka := hask a
      rw [show k a = .done r from hans.2] at hka
      exact absurd hW hka
    · rw [List.getElem?_set_ne hij, hu] at hv
      exact absurd (Option.some.inj hv).symm same
  | @acted ts s t f k j hj =>
    by_cases hij : j = i
    · subst hij
      obtain rfl := Option.some.inj (hj.symm.trans hu)
      rw [List.getElem?_set_self (List.getElem?_eq_some_iff.mp hj).1] at hv
      obtain rfl := Option.some.inj hv
      have hg := h.guar hj
      rwa [show (k s).answer? = some r from congrArg Prog.answer? hans.2] at hg
    · rw [List.getElem?_set_ne hij, hu] at hv
      exact absurd (Option.some.inj hv).symm same
  | @dropped ts s t p j hj hp =>
    by_cases hij : j = i
    · subst hij
      rw [List.getElem?_set_self (List.getElem?_eq_some_iff.mp hj).1] at hv
      obtain rfl := Option.some.inj hv
      cases hans.1
    · rw [List.getElem?_set_ne hij, hu] at hv
      exact absurd (Option.some.inj hv).symm same

/-- a move leaves a thread as it is, or takes a running one on. -/
theorem move_thread (h : Move Y P P') {i : Nat} {u : Thread S τ ε α} (hu : P.threads[i]? = some u) :
    ∃ v, P'.threads[i]? = some v ∧ v.task = u.task ∧ (v = u ∨ u.Running) := by
  have hlt := (List.getElem?_eq_some_iff.mp hu).1
  cases h with
  | spawned ht => exact ⟨u, by rw [List.getElem?_append_left hlt, hu], rfl, .inl rfl⟩
  | asked j hj ha =>
    by_cases hij : j = i
    · subst hij
      obtain rfl := Option.some.inj (hj.symm.trans hu)
      exact ⟨_, List.getElem?_set_self hlt, rfl, .inr ⟨rfl, rfl⟩⟩
    · exact ⟨u, by rw [List.getElem?_set_ne hij, hu], rfl, .inl rfl⟩
  | acted j hj =>
    by_cases hij : j = i
    · subst hij
      obtain rfl := Option.some.inj (hj.symm.trans hu)
      exact ⟨_, List.getElem?_set_self hlt, rfl, .inr ⟨rfl, rfl⟩⟩
    · exact ⟨u, by rw [List.getElem?_set_ne hij, hu], rfl, .inl rfl⟩
  | dropped j hj hp =>
    by_cases hij : j = i
    · subst hij
      obtain rfl := Option.some.inj (hj.symm.trans hu)
      exact ⟨_, List.getElem?_set_self hlt, rfl, .inr ⟨rfl, hp⟩⟩
    · exact ⟨u, by rw [List.getElem?_set_ne hij, hu], rfl, .inl rfl⟩

/-- a thread that is there began with the program of its task. -/
theorem reach_origin {s : S.State} (h : Reach Y ⟨[], s⟩ P) {i : Nat} {u : Thread S τ ε α}
    (hu : P.threads[i]? = some u) :
    ∃ P₀, Reach Y ⟨[], s⟩ P₀ ∧ P₀.threads[i]? = some ⟨u.task, Y.body u.task, true⟩ ∧
      Reach Y P₀ P := by
  induction h generalizing u with
  | refl => cases hu
  | @tail P₁ P₂ hr hm ih =>
    cases hold : P₁.threads[i]? with
    | some w =>
      obtain ⟨v, hv, htask, -⟩ := move_thread hm hold
      obtain rfl := Option.some.inj (hv.symm.trans hu)
      obtain ⟨P₀, h₀, hstart, hrest⟩ := ih hold
      rw [htask]
      exact ⟨P₀, h₀, hstart, hrest.tail hm⟩
    | none =>
      have hle : P₁.threads.length ≤ i := List.getElem?_eq_none_iff.mp hold
      have hlt := (List.getElem?_eq_some_iff.mp hu).1
      cases hm with
      | @spawned ts s t ht =>
        refine ⟨_, hr.tail (.spawned ht), ?_, .refl⟩
        rw [List.length_append, List.length_singleton] at hlt
        obtain rfl : i = ts.length := Nat.le_antisymm (Nat.lt_succ_iff.mp hlt) hle
        rw [List.getElem?_concat_length] at hu ⊢
        obtain rfl := Option.some.inj hu
        rfl
      | asked j _ _ =>
        rw [List.length_set] at hlt
        exact absurd hlt (Nat.not_lt.mpr hle)
      | acted j _ =>
        rw [List.length_set] at hlt
        exact absurd hlt (Nat.not_lt.mpr hle)
      | dropped j _ _ =>
        rw [List.length_set] at hlt
        exact absurd hlt (Nat.not_lt.mpr hle)

/-- **A thread that has answered ended by a move.** -/
theorem reach_ends (h : Reach Y P P') {i : Nat} {u v : Thread S τ ε α} (hu : P.threads[i]? = some u)
    (hopen : ¬ u.Answered r) (hv : P'.threads[i]? = some v) (hans : v.Answered r) :
    ∃ P₁ P₂, Reach Y P P₁ ∧ Ends Y P₁ P₂ u.task r ∧ Reach Y P₂ P' := by
  have going : ∀ {P'}, Reach Y P P' → ∃ v, P'.threads[i]? = some v ∧ v.task = u.task := by
    intro P' h
    induction h with
    | refl => exact ⟨u, hu, rfl⟩
    | tail _ hm ih =>
      obtain ⟨w, hw, htask⟩ := ih
      obtain ⟨v, hv, hvw, -⟩ := move_thread hm hw
      exact ⟨v, hv, hvw.trans htask⟩
  induction h generalizing v with
  | refl =>
    obtain rfl := Option.some.inj (hu.symm.trans hv)
    exact absurd hans hopen
  | @tail P₁ P₂ hr hm ih =>
    obtain ⟨w, hw, htask⟩ := going hr
    obtain ⟨v', hv', -, hsame⟩ := move_thread hm hw
    obtain rfl := Option.some.inj (hv.symm.trans hv')
    rcases hsame with rfl | hrun
    · obtain ⟨Q₁, Q₂, h₁, he, h₂⟩ := ih hw hans
      exact ⟨Q₁, Q₂, h₁, he, h₂.tail hm⟩
    · exact ⟨P₁, P₂, hr, ⟨hm, i, w, v, hw, hv, htask, hrun, hans⟩, .refl⟩

/-- a turn of one step that ends a thread. -/
theorem turn_ends {i : Nat} {u : Thread S τ ε α} {ans : Nat → (q : S.Ask) → S.Answer q}
    (hu : P.threads[i]? = some u) (hrun : u.Running) (ha : ∀ k q, Y.answers u.task q (ans k q))
    (hr : (Prog.advance ans 1 (u.rest, P.state)).1.answer? = some r) :
    Ends Y P (turn Y P (.run i 1 ans)) u.task r := by
  obtain ⟨ts, s⟩ := P
  obtain ⟨t, p, live⟩ := u
  obtain rfl : live = true := hrun.1
  have hlt : i < ts.length := (List.getElem?_eq_some_iff.mp hu).1
  have hturn : turn Y ⟨ts, s⟩ (.run i 1 ans) =
      ⟨ts.set i ⟨t, (Prog.advance ans 1 (p, s)).1, true⟩, (Prog.advance ans 1 (p, s)).2⟩ := by
    simp only [turn]
    rw [show ts[i]? = some ⟨t, p, true⟩ from hu]
  refine ⟨?_, i, ⟨t, p, true⟩, ⟨t, (Prog.advance ans 1 (p, s)).1, true⟩, hu, ?_, rfl, hrun, rfl,
    Prog.eq_done hr⟩
  · rw [hturn]
    cases p with
    | done r => cases hrun.2
    | ask q k => exact .asked i hu (ha 0 q)
    | act f k => exact .acted i hu
  · rw [hturn]
    exact List.getElem?_set_self hlt

end

end ChannelDigests.Lib
