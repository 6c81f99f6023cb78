import ChannelDigests.Privacy
import ChannelDigests.Erasure

/-!
# What a stored manifest says, and who is told

The row, the links and the canonical text of a manifest are written from one selection and agree
from then on; the route serves the text to the caller that names owner, run and digest.

* `Built.describes`        what a built manifest says of its text;
* `Db.Describes`           a stored text is what its row and its links say;
* `Db.Faithful`            all stored texts are, `Change.faithful`;
* `ManifestAnswer`         the answers of the manifest route, with what each one tells;
* `reachable_manifests`    **a stored manifest is what it claims to be and is served only as that**.
-/

namespace ChannelDigests
open Lib Prog

/-! ## The text of a built manifest -/

/-- the counts and the messages of a manifest are those of the sources in its text. -/
structure CanonicalManifest.Describes (manifest : CanonicalManifest) (cm : ContractManifest) :
    Prop where
  manifestRef : cm.manifestRef = manifest.manifestId
  owner : cm.owner = manifest.ownerId
  digestRunId : cm.digestRunId = manifest.runId
  sourceCount : manifest.sourceCount = cm.sources.length
  channelCount : manifest.channelCount = (cm.sources.map (·.channelRef)).dedup.length
  messages : ∀ channelId messageId, (channelId, messageId) ∈ manifest.messages ↔
    ∃ s ∈ cm.sources, s.channelRef = channelId ∧ s.messageId = messageId

/-- the counts are of the selection as it came, the text is of the sorted one. -/
theorem Built.describes {C : Contracts} {manifestId ownerId runId : Uuid}
    {windowStart windowEnd : Instant} {sources : List ManifestSource} {manifest : CanonicalManifest}
    (h : Built C manifestId ownerId runId windowStart windowEnd sources manifest) :
    ∃ cm, C.readManifest manifest.text = some cm ∧ manifest.Describes cm := by
  obtain ⟨selected, hsel, htext⟩ := h.text
  have hperm : List.Perm (selected.insertionSort fun a b => orderKey a ≤ orderKey b) selected :=
    List.perm_insertionSort _ _
  have hmessages := mapM_contractSource_messages hsel
  have hchannels : selected.map (·.channelRef) = sources.map (·.channelId) := by
    have := congrArg (List.map Prod.fst) hmessages
    rwa [List.map_map, List.map_map] at this
  refine ⟨_, C.readCanonical htext, h.manifestId_eq.symm, h.ownerId_eq.symm, h.runId_eq.symm, ?_, ?_,
    fun channelId messageId => ?_⟩
  · rw [h.sourceCount_eq, hperm.length_eq]
    exact (mapM_contractSource hsel).length_eq
  · rw [h.channelCount_eq, channelCountOf, ← hchannels]
    exact ((hperm.map _).dedup).length_eq.symm
  · have hmem : (channelId, messageId) ∈ selected.map (fun s => (s.channelRef, s.messageId)) ↔
        ∃ s ∈ selected, s.channelRef = channelId ∧ s.messageId = messageId := by
      simp only [List.mem_map, Prod.mk.injEq]
    rw [h.messages_eq, mem_messagesOf, ← List.mem_map, ← hmessages, hmem]
    exact exists_congr fun s => and_congr_left fun _ => hperm.mem_iff.symm

/-! ## Stored manifests -/

/-- a stored text is the one that its row and its links say. -/
structure Db.Describes (C : Contracts) (d : Db) (m : Manifest) (text : String) : Prop where
  digest : m.sha256 = C.textDigest text
  book : ∃ cm, C.readManifest text = some cm ∧ cm.manifestRef = m.manifestId ∧
    cm.owner = m.ownerId ∧ cm.digestRunId = m.runId ∧ m.sourceCount = cm.sources.length ∧
    m.channelCount = (cm.sources.map (·.channelRef)).dedup.length ∧
    ∀ channelId messageId, ⟨m.manifestId, channelId, messageId⟩ ∈ d.manifestSources ↔
      ∃ s ∈ cm.sources, s.channelRef = channelId ∧ s.messageId = messageId

/-- what holds of manifests and links together. -/
structure Db.Faithful (C : Contracts) (d : Db) : Prop where
  links : d.manifestSources.Nodup
  linked : ∀ l ∈ d.manifestSources, ∃ m ∈ d.manifests, m.manifestId = l.manifestId
  texts : ∀ m ∈ d.manifests, ∀ text, m.canonicalText = some text → d.Describes C m text
  dropped : ∀ m ∈ d.manifests, m.canonicalText = none → m.minimizedAt.isSome = true

theorem Db.Faithful.empty (C : Contracts) : Db.empty.Faithful C where
  links := List.nodup_nil
  linked _ h := by cases h
  texts _ h := by cases h
  dropped _ h := by cases h

section
variable {C : Contracts} {K : Message → Prop} {w : Crew} {k : Kind} {d d' : Db}

theorem mem_links {manifest : CanonicalManifest} {manifestId channelId : Uuid} {messageId : Int} :
    (⟨manifestId, channelId, messageId⟩ : ManifestSourceLink) ∈ manifest.links ↔
      manifestId = manifest.manifestId ∧ (channelId, messageId) ∈ manifest.messages := by
  simp only [CanonicalManifest.links, List.mem_map, ManifestSourceLink.mk.injEq, Prod.exists]
  constructor
  · rintro ⟨c, i, hmem, rfl, rfl, rfl⟩
    exact ⟨rfl, hmem⟩
  · rintro ⟨rfl, hmem⟩
    exact ⟨channelId, messageId, hmem, rfl, rfl, rfl⟩

/-- **The links after a change**: as they were, or with those of one committed manifest. -/
theorem Change.manifestSources (h : Change C K w k d d') :
    d'.manifestSources = d.manifestSources ∨
      ∃ m manifest request, ManifestCommitted m d d' C manifest request ∧
        d'.manifestSources = d.manifestSources ++ manifest.links := by
  have hf := h.frame .manifestSources
  cases h with
  | manifest h _ => exact .inr ⟨_, _, _, h, by rw [h.effect]⟩
  | _ => exact .inl (hf (by decide))

/-- the links of a manifest that was there do not change. -/
theorem Change.links_of (h : Change C K w k d d') {m : Manifest} (hm : m ∈ d.manifests)
    (channelId : Uuid) (messageId : Int) :
    ⟨m.manifestId, channelId, messageId⟩ ∈ d'.manifestSources ↔
      ⟨m.manifestId, channelId, messageId⟩ ∈ d.manifestSources := by
  rcases h.manifestSources with he | ⟨_, manifest, _, hc, he⟩
  · rw [he]
  · rw [he, List.mem_append, mem_links]
    exact or_iff_left fun hl => hc.newId m hm hl.1

/-- the text of a manifest that was just committed. -/
theorem ManifestCommitted.describes {moment : Moment} {manifest : CanonicalManifest}
    {request : RecapRequested} (h : ManifestCommitted moment d d' C manifest request)
    (hd : d.Faithful C) : d'.Describes C (manifest.row moment.now) manifest.text := by
  obtain ⟨windowStart, windowEnd, sources, hb⟩ := h.built
  obtain ⟨cm, hcm, hdesc⟩ := (build_ok hb).describes
  refine ⟨(build_ok hb).sha256_eq, cm, hcm, hdesc.manifestRef, hdesc.owner, hdesc.digestRunId,
    hdesc.sourceCount, hdesc.channelCount, fun channelId messageId => ?_⟩
  rw [h.effect, ← hdesc.messages]
  show _ ∈ d.manifestSources ++ manifest.links ↔ _
  rw [List.mem_append, mem_links]
  constructor
  · rintro (hold | ⟨-, hnew⟩)
    · obtain ⟨o, ho, hid⟩ := hd.linked _ hold
      exact absurd hid (h.newId o ho)
    · exact hnew
  · exact fun hnew => .inr ⟨rfl, hnew⟩

/-- **Every change keeps the stored texts faithful.** -/
theorem Change.faithful (h : Change C K w k d d') (hd : d.Faithful C) : d'.Faithful C where
  links := by
    rcases h.manifestSources with he | ⟨_, manifest, _, hc, he⟩
    · rw [he]
      exact hd.links
    · rw [he, List.nodup_append]
      refine ⟨hd.links, hc.links.1, fun l hl l' hl' he => ?_⟩
      exact hc.links.2 l' hl' (he ▸ hl)
  linked l hl := by
    have kept : l ∈ d.manifestSources → ∃ m ∈ d'.manifests, m.manifestId = l.manifestId := by
      intro hold
      obtain ⟨m, hm, hid⟩ := hd.linked l hold
      obtain ⟨m', hm', hmove⟩ := h.manifest_kept hm
      exact ⟨m', hm', hmove.manifestId.trans hid⟩
    rcases h.manifestSources with he | ⟨m, manifest, _, hc, he⟩
    · exact kept (he ▸ hl)
    · rw [he] at hl
      rcases List.mem_append.mp hl with hl | hl
      · exact kept hl
      · refine ⟨manifest.row m.now, ?_, (mem_links.mp hl).1.symm⟩
        rw [hc.effect]
        exact List.mem_append_right _ (List.mem_singleton.mpr rfl)
  texts m' hm' text ht := by
    rcases h.manifest_origin hm' with ⟨m, hm, hmove⟩ | ⟨m, manifest, request, hc, -, rfl⟩
    · obtain rfl := hmove.text ht
      obtain ⟨cm, hcm, h1, h2, h3, h4, h5, hlinks⟩ := (hd.texts m' hm text ht).book
      exact ⟨(hd.texts m' hm text ht).digest, cm, hcm, h1, h2, h3, h4, h5, fun channelId messageId =>
        (h.links_of hm channelId messageId).trans (hlinks channelId messageId)⟩
    · cases ht
      exact hc.describes hd
  dropped m' hm' ht := by
    rcases h.manifest_origin hm' with ⟨m, hm, rfl | ⟨now, rfl⟩⟩ | ⟨m, manifest, request, -, -, rfl⟩
    · exact hd.dropped m' hm ht
    · rfl
    · cases ht

end

/-! ## The manifest route -/

/-- the owner, the run and the digest that a request claims are those of the row. -/
structure Request.Claims (V : ViewContracts) (request : Request) (m : Manifest) : Prop where
  owner : requireOwner V request = some m.ownerId
  run : request.digestRunId.bind V.digestRunId = some m.runId
  digest : request.manifestDigest.bind V.digestHex = some m.sha256

/-- the answers of the manifest route: `succeeds` is whether its statement does. -/
inductive ManifestAnswer (C : Contracts) (V : ViewContracts) (state : ApiState) (d : Db)
    (request : Request) (succeeds : Bool) : Response V.Members → Prop where
  /-- the text has the claimed digest and is that of a manifest of the claimed owner and run. -/
  | served {m : Manifest} {text : String} : m ∈ d.manifests →
      request.route = .manifest (some m.manifestId) → request.Claims V m →
      m.canonicalText = some text → request.manifestDigest.bind V.digestHex = some (C.textDigest text) →
      ManifestAnswer C V state d request succeeds (noStore (.json (.manifest text)))
  /-- all claims match a row whose text was dropped. -/
  | gone {m : Manifest} : m ∈ d.manifests → request.route = .manifest (some m.manifestId) →
      request.Claims V m → m.canonicalText = none → m.minimizedAt.isSome = true →
      ManifestAnswer C V state d request succeeds (noStore (.bare .gone))
  /-- no row matches. -/
  | notFound : (∀ m ∈ d.manifests, request.route = .manifest (some m.manifestId) →
        ¬ request.Claims V m) →
      ManifestAnswer C V state d request succeeds (noStore (.bare .notFound))
  | unavailable : succeeds = false →
      ManifestAnswer C V state d request succeeds (noStore (.bare .serviceUnavailable))
  | unauthorized : authorize state request = false ∨ requireOwner V request = none →
      ManifestAnswer C V state d request succeeds (noStore (.bare .unauthorized))
  | badRequest : request.route = .manifest none →
      ManifestAnswer C V state d request succeeds (noStore (.bare .badRequest))

section
variable {C : Contracts} {V : ViewContracts} {d : Db} {ε α β : Type}

/-- a handler that goes on from its statement. -/
theorem converse_selected (rows : Db → α) (k : Option α → Handler ε β)
    (answer : List Inquiry → (q : Inquiry) → q.Answer) (asked : List Inquiry) :
    (select rows >>= k).converse answer d asked =
      (k (if answer asked .statement = true then some (rows d) else none)).converse answer d
        (asked ++ [.statement]) := by
  show Prog.converse answer (Prog.bind (Prog.ask _ _) k) d asked = _
  cases h : (answer asked .statement : Bool) with
  | true => simp [Prog.bind, Prog.next, Prog.converse, h]
  | false => simp [Prog.bind, Prog.next, Prog.converse, h]

/-- the response of the router is that of the route, marked. -/
theorem converse_router (state : ApiState) (request : Request)
    (answer : List Inquiry → (q : Inquiry) → q.Answer) {response : Response V.Members}
    (h : ((routed V state request).converse answer d []).1 = .ok response) :
    ((router V state request).converse answer d []).1 = .ok (noStore response) := by
  have general : ∀ (p : Handler Empty (Response V.Members)) (s : Db) (asked : List Inquiry),
      (p.converse answer s asked).1 = .ok response →
      ((p >>= fun response => pure (noStore response)).converse answer s asked).1 =
        .ok (noStore response) := by
    intro p
    induction p with
    | done r =>
      intro s asked h
      obtain rfl : r = .ok response := h
      rfl
    | ask q k ih => exact fun s asked h => ih _ s _ h
    | act f k ih => exact fun s asked h => ih s (f s) asked h
  exact general _ d [] h

theorem manifestText_some {manifestId owner runId : Uuid} {digest : Digest} {text : Option String}
    (h : d.manifestText manifestId owner runId digest = some text) :
    ∃ m ∈ d.manifests, m.manifestId = manifestId ∧ m.ownerId = owner ∧ m.runId = runId ∧
      m.sha256 = digest ∧ m.canonicalText = text := by
  unfold Db.manifestText at h
  obtain ⟨m, hm, rfl⟩ := Option.map_eq_some_iff.mp h
  have hp := List.find?_some hm
  simp only [Bool.and_eq_true, decide_eq_true_eq] at hp
  exact ⟨m, List.mem_of_find?_eq_some hm, hp.1.1.1, hp.1.1.2, hp.1.2, hp.2, rfl⟩

/-- the answers of the route once the owner is known. -/
theorem getManifest_answers (hd : d.Faithful C) (state : ApiState) {request : Request}
    {manifestId owner : Uuid} (hroute : request.route = .manifest (some manifestId))
    (howner : requireOwner V request = some owner)
    (answer : List Inquiry → (q : Inquiry) → q.Answer) :
    ∃ response, ((getManifest V owner manifestId request).converse answer d []).1 = .ok response ∧
      ManifestAnswer C V state d request (answer [] .statement) (noStore response) := by
  unfold getManifest
  rcases hrun : request.digestRunId.bind V.digestRunId with _ | runId
  · exact ⟨_, rfl, .notFound fun m _ _ hc => by simpa [hrun] using hc.run⟩
  rcases hdigest : request.manifestDigest.bind V.digestHex with _ | digest
  · exact ⟨_, rfl, .notFound fun m _ _ hc => by simpa [hdigest] using hc.digest⟩
  dsimp only
  rw [converse_selected]
  by_cases hs : answer [] .statement = true
  case neg =>
    rw [if_neg hs]
    exact ⟨_, rfl, .unavailable (by simpa using hs)⟩
  rw [if_pos hs]
  rcases hrow : d.manifestText manifestId owner runId digest with _ | text
  · refine ⟨_, rfl, .notFound fun m hm hid hc => ?_⟩
    have hnone := List.find?_eq_none.mp (Option.map_eq_none_iff.mp hrow) m hm
    have hid' : manifestId = m.manifestId := by simpa [hroute] using hid
    have howner' : owner = m.ownerId := by simpa [howner] using hc.owner
    have hrun' : runId = m.runId := by simpa [hrun] using hc.run
    have hdigest' : digest = m.sha256 := by simpa [hdigest] using hc.digest
    simp [hid', howner', hrun', hdigest'] at hnone
  · obtain ⟨m, hm, rfl, rfl, rfl, rfl, rfl⟩ := manifestText_some hrow
    have hclaims : request.Claims V m := ⟨howner, hrun, hdigest⟩
    rcases htext : m.canonicalText with _ | text
    · exact ⟨_, rfl, .gone hm hroute hclaims htext (hd.dropped m hm htext)⟩
    · refine ⟨_, rfl, .served hm hroute hclaims htext ?_⟩
      rw [hdigest, (hd.texts m hm text htext).digest]

/-- **The manifest route gives one of its answers**, for every request. -/
theorem router_manifest (hd : d.Faithful C) (state : ApiState) {request : Request}
    {path : Option Uuid} (hroute : request.route = .manifest path)
    (answer : List Inquiry → (q : Inquiry) → q.Answer) :
    ∃ response, ((router V state request).converse answer d []).1 = .ok response ∧
      ManifestAnswer C V state d request (answer [] .statement) response := by
  have hrouted : ∃ response, ((routed V state request).converse answer d []).1 = .ok response ∧
      ManifestAnswer C V state d request (answer [] .statement) (noStore response) := by
    unfold routed
    by_cases hauth : authorize state request = true
    case neg =>
      have hauth : authorize state request = false := by simpa using hauth
      rw [hauth]
      exact ⟨_, rfl, .unauthorized (.inl hauth)⟩
    rw [hauth]
    rcases howner : requireOwner V request with _ | owner
    · exact ⟨_, rfl, .unauthorized (.inr howner)⟩
    rw [hroute]
    cases path with
    | none => exact ⟨_, rfl, .badRequest hroute⟩
    | some manifestId => exact getManifest_answers hd state hroute howner answer
  obtain ⟨response, hr, ha⟩ := hrouted
  exact ⟨_, converse_router state request answer hr, ha⟩

end

/-- **A stored manifest is what it claims to be and is served only as that**, in every reachable
database: row, links and text agree, and the route tells of a manifest only the caller whose claims
match it. -/
theorem reachable_manifests {C : Contracts} {S : Setting} {d : Db} (h : Reachable C S d) :
    (∀ m ∈ d.manifests, ∀ text, m.canonicalText = some text → d.Describes C m text) ∧
    d.manifestSources.Nodup ∧
    ∀ (V : ViewContracts) (state : ApiState) (request : Request) (path : Option Uuid),
      request.route = .manifest path → ∀ answer : List Inquiry → (q : Inquiry) → q.Answer,
      ∃ response, ((router V state request).converse answer d []).1 = .ok response ∧
        ManifestAnswer C V state d request (answer [] .statement) response := by
  have hd : d.Faithful C := h.keeps (.empty C) fun hc => hc.faithful
  exact ⟨hd.texts, hd.links, fun V state request path hroute answer =>
    router_manifest hd state hroute answer⟩

theorem settled_manifests :
    Sample.settled.manifests.map (·.canonicalText) = [some "manifest"] ∧
    Sample.settled.manifestSources.map (·.messageId) = [5] ∧
    (∀ m ∈ Sample.settled.manifests, ∀ text, m.canonicalText = some text →
      Sample.settled.Describes Sample.contracts m text) ∧
    ∃ response, ((router Sample.views Sample.api (Sample.ask (.manifest (some 3770)))).converse
        Sample.knowledge Sample.settled []).1 = .ok response ∧
      ManifestAnswer Sample.contracts Sample.views Sample.api Sample.settled
        (Sample.ask (.manifest (some 3770))) true response :=
  ⟨by decide +kernel, by decide +kernel, (reachable_manifests Sample.settled_reachable).1,
    (reachable_manifests Sample.settled_reachable).2.2 Sample.views Sample.api _ _ rfl
      Sample.knowledge⟩

end ChannelDigests
