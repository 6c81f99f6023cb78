import ChannelDigests.Api
import ChannelDigests.Lib.Twin
import ChannelDigests.Catalogue
import ChannelDigests.Refinement
import ChannelDigests.Documents

/-!
# The reads of one owner

Two databases that hold the same of one owner answer that owner alike, and Knowledge is asked
alike.

* `Db.PrimaryKeys`     the keys of the tables that the routes read, `reachable_primaryKeys`;
* `Db.AgreesFor`       two databases that hold the same of an owner;
* `subscriptionRows_eq`, `resultRows_eq`, `manifestText_eq`, `resultOf_eq`   the four statements;
* `Inquiry.Warranted`  a question to Knowledge is about a result of the owner that is not failed;
* `reads_isolated`     **an owner's reads reveal nothing about other owners**.
-/

namespace ChannelDigests
open Lib Prog

/-! ## Databases that agree for an owner -/

/-- the primary keys of the tables that the routes read. -/
structure Db.PrimaryKeys (d : Db) : Prop where
  channels : KeyUnique Channel.channelId d.channels
  subscriptions : KeyUnique Subscription.subscriptionId d.subscriptions
  manifests : KeyUnique Manifest.manifestId d.manifests
  results : KeyUnique DigestResult.resultId d.results

/-- the two databases hold the same subscriptions, manifests and results of the owner, and the same
channels under these subscriptions. -/
structure Db.AgreesFor (owner : Uuid) (d d' : Db) : Prop where
  subscriptions : ∀ s : Subscription, s.ownerId = owner →
    (s ∈ d.subscriptions ↔ s ∈ d'.subscriptions)
  channels : ∀ s ∈ d.subscriptions, s.ownerId = owner → ∀ c : Channel, c.channelId = s.channelId →
    (c ∈ d.channels ↔ c ∈ d'.channels)
  manifests : ∀ m : Manifest, m.ownerId = owner → (m ∈ d.manifests ↔ m ∈ d'.manifests)
  results : ∀ x : DigestResult, x.ownerId = owner → (x ∈ d.results ↔ x ∈ d'.results)

section
variable {d d' : Db} {owner : Uuid}

/-- the rows that `list_subscriptions` orders. -/
theorem mem_joinedRows {row : Subscription × Channel} :
    row ∈ ((d.subscriptions.filter fun s => s.ownerId = owner).flatMap fun s =>
      (d.channels.filter fun c => c.channelId = s.channelId).map fun c => (s, c)) ↔
    (row.1 ∈ d.subscriptions ∧ row.1.ownerId = owner) ∧
      row.2 ∈ d.channels ∧ row.2.channelId = row.1.channelId := by
  obtain ⟨s, c⟩ := row
  simp only [List.mem_flatMap, List.mem_filter, List.mem_map, decide_eq_true_eq, Prod.mk.injEq]
  constructor
  · rintro ⟨s', hs, c', hc, rfl, rfl⟩
    exact ⟨hs, hc⟩
  · rintro ⟨hs, hc⟩
    exact ⟨s, hs, c, hc, rfl, rfl⟩

theorem joinedRows_keyed (hd : d.PrimaryKeys) :
    KeyUnique (fun row : Subscription × Channel => row.1.subscriptionId)
      ((d.subscriptions.filter fun s => s.ownerId = owner).flatMap fun s =>
        (d.channels.filter fun c => c.channelId = s.channelId).map fun c => (s, c)) := by
  refine (hd.subscriptions.filter _).flatMap (fun s _ => ?_) fun s _ row hrow => ?_
  · rw [List.length_map]
    by_cases hc : ∃ c ∈ d.channels, c.channelId = s.channelId
    · obtain ⟨c, hmem, hid⟩ := hc
      rw [← hid, hd.channels.filter_eq hmem]
      exact le_refl 1
    · have hnil : d.channels.filter (fun c => c.channelId = s.channelId) = [] :=
        List.filter_eq_nil_iff.mpr fun c hmem hid => hc ⟨c, hmem, of_decide_eq_true hid⟩
      rw [hnil]
      exact Nat.zero_le 1
  · obtain ⟨c, -, rfl⟩ := List.mem_map.mp hrow
    rfl

theorem subscriptionRows_eq (hd : d.PrimaryKeys) (hd' : d'.PrimaryKeys) (h : d.AgreesFor owner d')
    (limit : Nat) : d.subscriptionRows owner limit = d'.subscriptionRows owner limit := by
  have sorted : ∀ a b : Subscription × Channel,
      toLex (a.1.firstActivatedAt, a.1.subscriptionId) =
        toLex (b.1.firstActivatedAt, b.1.subscriptionId) → a.1.subscriptionId = b.1.subscriptionId :=
    fun a b hab => congrArg (fun k => (ofLex k).2) hab
  unfold Db.subscriptionRows newestRows
  rw [((joinedRows_keyed hd).of_key sorted).insertionSort_eq
    ((joinedRows_keyed hd').of_key sorted) fun row => ?_]
  rw [mem_joinedRows, mem_joinedRows]
  constructor
  · rintro ⟨⟨hs, ho⟩, hc, hid⟩
    exact ⟨⟨(h.subscriptions _ ho).mp hs, ho⟩, (h.channels _ hs ho _ hid).mp hc, hid⟩
  · rintro ⟨⟨hs, ho⟩, hc, hid⟩
    have hs' := (h.subscriptions _ ho).mpr hs
    exact ⟨⟨hs', ho⟩, (h.channels _ hs' ho _ hid).mpr hc, hid⟩

theorem resultRows_eq (hd : d.PrimaryKeys) (hd' : d'.PrimaryKeys) (h : d.AgreesFor owner d')
    (limit : Nat) : d.resultRows owner limit = d'.resultRows owner limit := by
  have sorted : ∀ a b : DigestResult, toLex (a.createdAt, a.resultId) = toLex (b.createdAt, b.resultId) →
      a.resultId = b.resultId := fun a b hab => congrArg (fun k => (ofLex k).2) hab
  unfold Db.resultRows newestRows
  rw [((hd.results.filter _).of_key sorted).insertionSort_eq ((hd'.results.filter _).of_key sorted)
    fun x => ?_]
  simp only [List.mem_filter, decide_eq_true_eq]
  exact and_congr_left fun ho => h.results x ho

theorem manifestText_eq (hd' : d'.PrimaryKeys) (h : d.AgreesFor owner d')
    (manifestId runId : Uuid) (digest : Digest) :
    d.manifestText manifestId owner runId digest = d'.manifestText manifestId owner runId digest := by
  unfold Db.manifestText
  rw [hd'.manifests.find?_eq]
  · intro a b ha hb
    simp only [Bool.and_eq_true, decide_eq_true_eq] at ha hb
    rw [ha.1.1.1, hb.1.1.1]
  · intro m hm
    simp only [Bool.and_eq_true, decide_eq_true_eq] at hm
    exact h.manifests m hm.1.1.2

theorem resultOf_eq (hd' : d'.PrimaryKeys) (h : d.AgreesFor owner d')
    (resultId : Uuid) : d.resultOf resultId owner = d'.resultOf resultId owner := by
  unfold Db.resultOf
  refine hd'.results.find?_eq (fun a b ha hb => ?_) fun x hx => ?_
  · simp only [Bool.and_eq_true, decide_eq_true_eq] at ha hb
    rw [ha.1, hb.1]
  · simp only [Bool.and_eq_true, decide_eq_true_eq] at hx
    exact h.results x hx.2

theorem resultOf_some {resultId : Uuid} {x : DigestResult} (h : d.resultOf resultId owner = some x) :
    x ∈ d.results ∧ x.resultId = resultId ∧ x.ownerId = owner :=
  ⟨List.mem_of_find?_eq_some h, by simpa using List.find?_some h⟩

end

/-! ## What is asked of Knowledge -/

/-- a question to Knowledge is about the recap of a result of the owner that is not failed, and
only for the route of this result. -/
def Inquiry.Warranted (d : Db) (owner : Uuid) (route : Route) : Inquiry → Prop
  | .statement => True
  | .knowledge request => ∃ x ∈ d.results, route = .result (some x.resultId) ∧ x.ownerId = owner ∧
    x.outcome ≠ .failed ∧ x.recapId = some request.analysisId

/-- the two handlers see their own database each, ask the same and are answered the same. -/
def isolated (d d' : Db) (owner : Uuid) (route : Route) : Likeness interface where
  state s s' := s = d ∧ s' = d'
  ask q q' := q = q' ∧ q.Warranted d owner route
  answer _ _ a a' := HEq a a'

section
variable {V : ViewContracts} {d d' : Db} {owner : Uuid} {route : Route} {ε α : Type}

/-- the rule of a statement that reads the same in both databases. -/
theorem twin_select {rows : Db → α} (h : rows d = rows d') :
    (select rows : Handler ε (Option α)).Twin (isolated d d' owner route)
      (fun r r' => r = r' ∧ (r = .ok none ∨ r = .ok (some (rows d)))) (select rows) := by
  refine ⟨⟨rfl, trivial⟩, fun a a' ha => ?_⟩
  obtain rfl := eq_of_heq ha
  cases a with
  | false => exact ⟨rfl, .inl rfl⟩
  | true =>
    intro s s' hs
    obtain ⟨rfl, rfl⟩ := hs
    exact ⟨⟨rfl, rfl⟩, congrArg (fun x => Except.ok (some x)) h, .inr rfl⟩

/-- the rule of a handler that goes on from such a statement. -/
theorem twin_selected {β : Type} {rows : Db → α} (h : rows d = rows d')
    {k : Option α → Handler ε β} (hn : (k none).Twin (isolated d d' owner route) Eq (k none))
    (hs : (k (some (rows d))).Twin (isolated d d' owner route) Eq (k (some (rows d)))) :
    (select rows >>= k).Twin (isolated d d' owner route) Eq (select rows >>= k) := by
  refine twin_bind (twin_select h) fun r r' hr => ?_
  obtain ⟨rfl, rfl | rfl⟩ := hr
  · exact hn
  · exact hs

theorem twin_done (r : Except ε α) : (Prog.done r : Handler ε α).Twin (isolated d d' owner route) Eq
    (Prog.done r) := rfl

theorem twin_listSubscriptions (state : ApiState) (hd : d.PrimaryKeys) (hd' : d'.PrimaryKeys)
    (h : d.AgreesFor owner d') (page : PageQuery) :
    (listSubscriptions V state owner page).Twin (isolated d d' owner route) Eq
      (listSubscriptions V state owner page) := by
  unfold listSubscriptions
  cases checkedPageSize state page with
  | error status => exact twin_done _
  | ok limit =>
    refine twin_selected (subscriptionRows_eq hd hd' h limit) (twin_done _) ?_
    dsimp only
    cases (d.subscriptionRows owner limit).mapM (subscriptionView V) with
    | none => exact twin_done _
    | some subscriptions => exact twin_done _

theorem twin_getManifest (hd' : d'.PrimaryKeys) (h : d.AgreesFor owner d') (manifestId : Uuid)
    (request : Request) :
    (getManifest V owner manifestId request).Twin (isolated d d' owner route) Eq
      (getManifest V owner manifestId request) := by
  unfold getManifest
  split
  · next runId digest _ _ =>
    refine twin_selected (manifestText_eq hd' h manifestId runId digest) (twin_done _) ?_
    rcases d.manifestText manifestId owner runId digest with _ | _ | text
    · exact twin_done _
    · exact twin_done _
    · exact twin_done _
  · exact twin_done _

theorem twin_listResults (state : ApiState) (hd : d.PrimaryKeys) (hd' : d'.PrimaryKeys)
    (h : d.AgreesFor owner d') (page : PageQuery) :
    (listResults V state owner page).Twin (isolated d d' owner route) Eq
      (listResults V state owner page) := by
  unfold listResults
  cases checkedPageSize state page with
  | error status => exact twin_done _
  | ok limit =>
    refine twin_selected (resultRows_eq hd hd' h limit) (twin_done _) ?_
    dsimp only
    cases (d.resultRows owner limit).mapM (resultSummary V) with
    | none => exact twin_done _
    | some results => exact twin_done _

/-- Knowledge is asked once, for the recap of the result. -/
theorem twin_read (reader : KnowledgeResultReader) {row : DigestResult} {recapId : Uuid}
    (digest : Digest) (hrow : row ∈ d.results) (howner : row.ownerId = owner)
    (hroute : route = .result (some row.resultId)) (hfailed : row.outcome ≠ .failed)
    (hrecap : row.recapId = some recapId) :
    (reader.read V recapId digest).Twin (isolated d d' owner route) Eq
      (reader.read V recapId digest) := by
  refine ⟨⟨rfl, row, hrow, hroute, howner, hfailed, hrecap⟩, fun a a' ha => ?_⟩
  obtain rfl := eq_of_heq ha
  exact twin_done _

theorem twin_resultView (reader : KnowledgeResultReader) {row : DigestResult} (hrow : row ∈ d.results)
    (howner : row.ownerId = owner) (hroute : route = .result (some row.resultId)) :
    (resultView V reader row).Twin (isolated d d' owner route) Eq (resultView V reader row) := by
  unfold resultView
  by_cases hrefs : (!(V.resultRef row.resultId && V.runRef row.runId)) = true
  · rw [if_pos hrefs]
    exact twin_done _
  rw [if_neg hrefs]
  by_cases hfailed : row.outcome = .failed
  · rw [if_pos hfailed]
    exact twin_done _
  rw [if_neg hfailed]
  rcases hrecap : row.recapId with _ | recapId
  · exact twin_done _
  rcases row.resultDigest with _ | digest
  · exact twin_done _
  have hread : ((reader.read V recapId digest).mapError KnowledgeResultReadError.status).Twin
      (isolated d d' owner route) Eq
      ((reader.read V recapId digest).mapError KnowledgeResultReadError.status) :=
    twin_next (twin_read reader digest hrow howner hroute hfailed hrecap) fun r r' hr =>
      congrArg _ hr
  refine twin_bind hread fun r r' hr => ?_
  subst hr
  cases r with
  | ok projection => exact twin_done _
  | error status => rfl

theorem twin_getResult (state : ApiState) (hd' : d'.PrimaryKeys) (h : d.AgreesFor owner d')
    {resultId : Uuid} (hroute : route = .result (some resultId)) :
    (getResult V state owner resultId).Twin (isolated d d' owner route) Eq
      (getResult V state owner resultId) := by
  unfold getResult
  refine twin_selected (resultOf_eq hd' h resultId) (twin_done _) ?_
  rcases hrow : d.resultOf resultId owner with _ | row
  · exact twin_done _
  obtain ⟨hmem, hid, howner⟩ := resultOf_some hrow
  have hview : (resultView V state.resultReader row).outcome.Twin (isolated d d' owner route) Eq
      ((resultView V state.resultReader row).outcome : Handler Empty _) :=
    twin_next (twin_resultView state.resultReader hmem howner (hid ▸ hroute)) fun r r' hr =>
      congrArg Except.ok hr
  refine twin_bind hview fun r r' hr => ?_
  subst hr
  rcases r with e | _ | view
  · exact e.elim
  · exact twin_done _
  · exact twin_done _

theorem twin_router (state : ApiState) (hd : d.PrimaryKeys) (hd' : d'.PrimaryKeys) {request : Request}
    (howner : requireOwner V request = some owner) (h : d.AgreesFor owner d') :
    (router V state request).Twin (isolated d d' owner request.route) Eq (router V state request) := by
  have hrouted : (routed V state request).Twin (isolated d d' owner request.route) Eq
      (routed V state request) := by
    unfold routed
    rw [howner]
    by_cases ha : (!authorize state request) = true
    · rw [if_pos ha]
      exact twin_done _
    rw [if_neg ha]
    dsimp only
    split
    · exact twin_listSubscriptions state hd hd' h _
    · exact twin_getManifest hd' h _ _
    · exact twin_listResults state hd hd' h _
    · next resultId hroute => exact twin_getResult state hd' h hroute
    · exact twin_done _
  refine twin_bind hrouted fun r r' hr => ?_
  subst hr
  rcases r with e | response
  · exact e.elim
  · exact twin_done _

/-- **An owner's reads reveal nothing about other owners**: on two databases that agree for the
owner, the same response is given and the same is asked of Knowledge, whatever it answers; and it
is asked only for a result of the owner that is not failed. -/
theorem reads_isolated (state : ApiState) (hd : d.PrimaryKeys) (hd' : d'.PrimaryKeys)
    (h : d.AgreesFor owner d') {request : Request} (howner : requireOwner V request = some owner)
    (answer : List Inquiry → (q : Inquiry) → q.Answer) :
    (router V state request).converse answer d [] = (router V state request).converse answer d' [] ∧
    ∀ q ∈ ((router V state request).converse answer d []).2, q.Warranted d owner request.route := by
  have htwin := twin_router state hd hd' howner h
  have alike : ∀ asked asked' q q',
      List.Forall₂ (isolated d d' owner request.route).ask asked asked' →
      (isolated d d' owner request.route).ask q q' → HEq (answer asked q) (answer asked' q') := by
    intro asked asked' q q' hs hq
    obtain rfl : asked = asked' := List.forall₂_eq_eq_eq ▸ hs.imp fun _ _ he => he.1
    obtain rfl := hq.1
    exact HEq.rfl
  obtain ⟨hr, hasked⟩ := htwin.converse alike ⟨rfl, rfl⟩ .nil
  refine ⟨Prod.ext hr (List.forall₂_eq_eq_eq ▸ hasked.imp fun _ _ he => he.1), fun q hq => ?_⟩
  generalize ((router V state request).converse answer d []).2 = l at hasked hq
  generalize ((router V state request).converse answer d' []).2 = l' at hasked
  induction hasked with
  | nil => cases hq
  | cons he _ ih =>
    rcases List.mem_cons.mp hq with rfl | hq
    · exact he.2
    · exact ih hq

end

/-! ## A sample -/

namespace Sample

/-- two owners and one run, digest and recap are known by name; a recap is read from any bytes. -/
def views : ViewContracts where
  Value := Unit
  Members := Unit
  userId s := if s = "seven" then some 7 else if s = "eight" then some 8 else none
  digestRunId s := if s = "fifty" then some 50 else none
  digestHex s := if s = "manifest" then some (textDigest "manifest") else none
  subscriptionRef _ := true
  resultRef _ := true
  runRef _ := true
  channelUsername s := s ≠ ""
  failureClass s := s ≠ ""
  timestamp _ := true
  contentDigest _ := true
  envelope _ := some ⟨71, "sha256", some 5, ()⟩
  asObject := some

def api : ApiState := ⟨"secret", 50, ⟨"http://127.0.0.1:8096", "reader", 65536⟩⟩

/-- the owner asks, with claims to the manifest of the run. -/
def ask (route : Route) : Request :=
  ⟨some "Bearer secret", some "seven", some "fifty", some "manifest", route⟩

/-- no statement fails, and Knowledge answers. -/
def knowledge : List Inquiry → (q : Inquiry) → q.Answer
  | _, .statement => true
  | _, .knowledge _ => some ⟨200, some "application/json; charset=utf-8", none, [some [123, 125]]⟩

/-- the settled database with rows of another owner. -/
def crowded : Db :=
  { settled with
    channels := ⟨9000, "leanlang", none⟩ :: settled.channels
    subscriptions := ⟨9001, 8, 9000, 0, true⟩ :: settled.subscriptions
    manifests := ⟨9002, 9003, 8, 5, 1, 1, some "other", none, 0⟩ :: settled.manifests
    results := ⟨9004, 9003, 9002, 8, .failed, none, none, 0, some "cancelled", 0⟩ :: settled.results }

theorem settled_keys : settled.PrimaryKeys where
  channels := by unfold KeyUnique; decide +kernel
  subscriptions := by unfold KeyUnique; decide +kernel
  manifests := by unfold KeyUnique; decide +kernel
  results := by unfold KeyUnique; decide +kernel

theorem crowded_keys : crowded.PrimaryKeys where
  channels := by unfold KeyUnique; decide +kernel
  subscriptions := by unfold KeyUnique; decide +kernel
  manifests := by unfold KeyUnique; decide +kernel
  results := by unfold KeyUnique; decide +kernel

theorem crowded_agrees : settled.AgreesFor 7 crowded where
  subscriptions s hs := by
    refine ⟨List.mem_cons_of_mem _, fun h => (List.mem_cons.mp h).resolve_left ?_⟩
    rintro rfl
    cases hs
  channels s hs _ c hc := by
    refine ⟨List.mem_cons_of_mem _, fun h => (List.mem_cons.mp h).resolve_left ?_⟩
    rintro rfl
    have hnone : ∀ s ∈ settled.subscriptions, (9000 : Uuid) ≠ s.channelId := by decide +kernel
    exact hnone s hs hc
  manifests m hm := by
    refine ⟨List.mem_cons_of_mem _, fun h => (List.mem_cons.mp h).resolve_left ?_⟩
    rintro rfl
    cases hm
  results x hx := by
    refine ⟨List.mem_cons_of_mem _, fun h => (List.mem_cons.mp h).resolve_left ?_⟩
    rintro rfl
    cases hx

end Sample

theorem crowded_unseen :
    requireOwner Sample.views (Sample.ask (.result (some 70))) = some 7 ∧
    ((router Sample.views Sample.api (Sample.ask (.result (some 70)))).converse Sample.knowledge
      Sample.settled []).2 = [.statement, .knowledge ⟨"http://127.0.0.1:8096", 71, "reader"⟩] ∧
    (router Sample.views Sample.api (Sample.ask (.result (some 70)))).converse Sample.knowledge
        Sample.settled [] =
      (router Sample.views Sample.api (Sample.ask (.result (some 70)))).converse Sample.knowledge
        Sample.crowded [] :=
  ⟨by decide, by decide +kernel,
    (reads_isolated Sample.api Sample.settled_keys Sample.crowded_keys Sample.crowded_agrees
      (by decide) Sample.knowledge).1⟩

end ChannelDigests
