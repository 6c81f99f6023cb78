import ChannelDigests.Lib.Histories
import ChannelDigests.Executor
import ChannelDigests.Reaper
import ChannelDigests.Outbox

/-!
# Histories that differ in their posts

Two histories in which other texts were posted: corresponding texts are equal or different in the
same places, and both are empty, within the limit or over it.  What a database holds of the texts
is their digests, the digests of the manifests they are in, and those of the recaps made of them.

* `Disguise`            which texts and which recap digests correspond;
* `Blind`               the contract crates do not look at the value of a digest;
* `Disguise.ManifestDigest`   manifest digests that correspond; `ManifestDigest.same`;
* `Disguise.Resembles`  databases that hold corresponding rows;
* `build_like`          **manifests are built of corresponding sources alike**;
* `OutboxMessage.masked`      an outbox row without the manifest digest of its recap request.
-/

namespace ChannelDigests
open Lib

/-! ## Texts -/

section
variable (C : Contracts) (text : String → String → Prop)

/-- two sources of a manifest that differ in a corresponding text. -/
def SourceLike (s s' : ContractSource) : Prop :=
  ∃ t', text s.content t' ∧ s.contentDigest = C.textDigest s.content ∧
    s' = { s with
      content := t'
      contentDigest := C.textDigest t' }

/-- two manifests that differ in corresponding texts. -/
def ManifestsLike (m m' : ContractManifest) : Prop :=
  ∃ sources, List.Forall₂ (SourceLike C text) m.sources sources ∧ m' = { m with sources := sources }

end

/-- the texts of two histories that correspond, and the digests of the recaps that are made of
them. -/
structure Disguise (C : Contracts) where
  text : String → String → Prop
  recap : Digest → Digest → Prop
  /-- corresponding texts are equal or different in the same places. -/
  textSame : ∀ {t t' u u'}, text t t' → text u u' → (t = u ↔ t' = u')
  recapSame : ∀ {a a' b b'}, recap a a' → recap b b' → (a = b ↔ a' = b')
  empty : ∀ {t t'}, text t t' → (t.utf8ByteSize = 0 ↔ t'.utf8ByteSize = 0)
  beyond : ∀ {t t'}, text t t' → (maxContentBytes < t.utf8ByteSize ↔ maxContentBytes < t'.utf8ByteSize)
  /-- the canonical encoder accepts both or neither. -/
  accepts : ∀ {m m'}, ManifestsLike C text m m' →
    (C.canonicalText m).isSome = (C.canonicalText m').isSome

/-- the crates do not look at the value of a digest, nor at a manifest digest in an envelope. -/
structure Blind (C : Contracts) : Prop where
  requestBytes : ∀ r digest, (C.recapRequest.toVec { r with manifestDigest := digest }).isSome =
    (C.recapRequest.toVec r).isSome
  request : ∀ r digest, C.recapRequest.validForPublish { r with manifestDigest := digest } =
    C.recapRequest.validForPublish r
  completedBytes : ∀ f digest recap, (C.completed.toVec
    { f with
      manifestDigest := digest
      resultDigest := recap }).isSome = (C.completed.toVec f).isSome
  completed : ∀ f digest recap, C.completed.validForPublish
    { f with
      manifestDigest := digest
      resultDigest := recap } = C.completed.validForPublish f
  failedBytes : ∀ f digest, (C.failed.toVec { f with manifestDigest := digest }).isSome =
    (C.failed.toVec f).isSome
  failed : ∀ f digest, C.failed.validForPublish { f with manifestDigest := digest } =
    C.failed.validForPublish f
  envelope : ∀ m r digest, m.payload = .recapRequest r →
    C.encodes { m with payload := .recapRequest { r with manifestDigest := digest } } = C.encodes m

namespace Disguise
variable {C : Contracts} (D : Disguise C)

/-! ## Manifest digests -/

/-- the digests of two manifests that differ in corresponding texts. -/
def ManifestDigest (a a' : Digest) : Prop :=
  ∃ m m' t t', ManifestsLike C D.text m m' ∧ C.canonicalText m = some t ∧
    C.canonicalText m' = some t' ∧ a = C.textDigest t ∧ a' = C.textDigest t'

/-- digests of corresponding manifests, or of no manifest of either history. -/
def NamedDigest (a a' : Digest) : Prop :=
  D.ManifestDigest a a' ∨ ∀ b b', D.ManifestDigest b b' → b ≠ a ∧ b' ≠ a'

/-- no two texts of one history have the same digest. -/
structure CollisionFree : Prop where
  texts : ∀ {t t' u u'}, D.text t t' → D.text u u' →
    (C.textDigest t = C.textDigest u → t = u) ∧ (C.textDigest t' = C.textDigest u' → t' = u')
  manifests : ∀ {m m' n n' t t' u u'}, ManifestsLike C D.text m m' → ManifestsLike C D.text n n' →
    C.canonicalText m = some t → C.canonicalText m' = some t' → C.canonicalText n = some u →
    C.canonicalText n' = some u' →
    (C.textDigest t = C.textDigest u → t = u) ∧ (C.textDigest t' = C.textDigest u' → t' = u')

variable {D}

theorem source_same {s s' u u' : ContractSource} (h : SourceLike C D.text s s')
    (h' : SourceLike C D.text u u') : s = u ↔ s' = u' := by
  obtain ⟨t', htext, hdigest, rfl⟩ := h
  obtain ⟨v', hvtext, hvdigest, rfl⟩ := h'
  have hsame := D.textSame htext hvtext
  constructor
  · rintro rfl
    rw [hsame.mp rfl]
  · intro he
    have hcontent := hsame.mpr (congrArg ContractSource.content he)
    rw [hcontent, ← hvdigest] at hdigest
    rcases s with ⟨⟩
    rcases u with ⟨⟩
    simp only [ContractSource.mk.injEq] at he hcontent hdigest ⊢
    exact ⟨he.1, he.2.1, he.2.2.1, he.2.2.2.1, he.2.2.2.2.1, hcontent, hdigest, he.2.2.2.2.2.2.2⟩

theorem sources_same {l l' k k' : List ContractSource}
    (h : List.Forall₂ (SourceLike C D.text) l l') (h' : List.Forall₂ (SourceLike C D.text) k k') :
    l = k ↔ l' = k' := by
  induction h generalizing k k' with
  | nil =>
    cases h' with
    | nil => exact iff_of_true rfl rfl
    | cons _ _ => exact iff_of_false nofun nofun
  | cons hs _ ih =>
    cases h' with
    | nil => exact iff_of_false nofun nofun
    | cons hu ht =>
      rw [List.cons.injEq, List.cons.injEq]
      exact and_congr (source_same hs hu) (ih ht)

theorem manifests_same {m m' n n' : ContractManifest} (h : ManifestsLike C D.text m m')
    (h' : ManifestsLike C D.text n n') : m = n ↔ m' = n' := by
  obtain ⟨l, hl, rfl⟩ := h
  obtain ⟨k, hk, rfl⟩ := h'
  have hsame := sources_same hl hk
  rcases m with ⟨⟩
  rcases n with ⟨⟩
  simp only [ContractManifest.mk.injEq] at hsame ⊢
  rw [hsame]

/-- **Manifest digests that correspond are equal or different in the same places.** -/
theorem ManifestDigest.same (hC : D.CollisionFree) {a a' b b' : Digest}
    (h : D.ManifestDigest a a') (h' : D.NamedDigest b b') : a = b ↔ a' = b' := by
  rcases h' with ⟨n, n', u, u', hn, hu, hu', rfl, rfl⟩ | hno
  · obtain ⟨m, m', t, t', hm, ht, ht', rfl, rfl⟩ := h
    have hsame := manifests_same hm hn
    obtain ⟨hfree, hfree'⟩ := hC.manifests hm hn ht ht' hu hu'
    constructor
    · intro he
      obtain rfl := hfree he
      obtain rfl := Option.some.inj ((C.readCanonical ht).symm.trans (C.readCanonical hu))
      rw [hsame.mp rfl] at ht'
      rw [Option.some.inj (ht'.symm.trans hu')]
    · intro he
      obtain rfl := hfree' he
      obtain rfl := Option.some.inj ((C.readCanonical ht').symm.trans (C.readCanonical hu'))
      rw [hsame.mpr rfl] at ht
      rw [Option.some.inj (ht.symm.trans hu)]
  · exact iff_of_false (hno a a' h).1 (hno a a' h).2

/-! ## Rows -/

variable (D)

/-- two revisions of corresponding texts. -/
def RevisionLike (r r' : Revision) : Prop :=
  ∃ t t' body, D.text t t' ∧ r.contentSha256 = C.textDigest t ∧
    (r.body = some t ∧ body = some t' ∨ r.body = none ∧ body = none) ∧
    r' = { r with
      contentSha256 := C.textDigest t'
      body := body }

/-- two manifest rows of corresponding digests, both with their text or both without. -/
def ManifestLike (r r' : Manifest) : Prop :=
  ∃ digest text, D.ManifestDigest r.sha256 digest ∧ text.isSome = r.canonicalText.isSome ∧
    r' = { r with
      sha256 := digest
      canonicalText := text }

/-- two results of corresponding recap digests. -/
def ResultLike (r r' : DigestResult) : Prop :=
  ∃ digest, Option.Rel D.recap r.resultDigest digest ∧ r' = { r with resultDigest := digest }

/-- two inbox rows of other payloads. -/
def InboxLike (r r' : InboxMessage) : Prop := ∃ sha, r' = { r with payloadSha256 := sha }

end Disguise

/-- the payloads are equal, except for the manifest digest of a recap request. -/
inductive PayloadLike : OutboxPayload → OutboxPayload → Prop where
  | same (p : OutboxPayload) : PayloadLike p p
  | request (r : RecapRequested) (digest : Digest) :
      PayloadLike (.recapRequest r) (.recapRequest { r with manifestDigest := digest })

/-- the rows are equal, except for the manifest digest of a recap request. -/
def OutboxLike (r r' : OutboxMessage) : Prop :=
  ∃ payload, PayloadLike r.payload payload ∧ r' = { r with payload := payload }

/-- a payload without the manifest digest of a recap request. -/
def OutboxPayload.masked : OutboxPayload → OutboxPayload
  | .recapRequest r => .recapRequest { r with manifestDigest := 0 }
  | p => p

/-- an outbox row without the manifest digest of its recap request. -/
def OutboxMessage.masked (r : OutboxMessage) : OutboxMessage :=
  { r with payload := r.payload.masked }

theorem PayloadLike.masked {p p' : OutboxPayload} (h : PayloadLike p p') : p.masked = p'.masked := by
  cases h <;> rfl

theorem OutboxLike.masked {r r' : OutboxMessage} (h : OutboxLike r r') : r.masked = r'.masked := by
  obtain ⟨payload, hp, rfl⟩ := h
  exact congrArg (fun p => ({ r with payload := p } : OutboxMessage)) hp.masked

namespace Disguise
variable {C : Contracts} (D : Disguise C)

/-- two databases that hold corresponding rows; the tables without texts and digests are equal. -/
inductive Resembles (d : Db) : Db → Prop where
  | mk {revisions manifests results inbox outbox} :
      List.Forall₂ D.RevisionLike d.revisions revisions →
      List.Forall₂ D.ManifestLike d.manifests manifests →
      List.Forall₂ D.ResultLike d.results results → List.Forall₂ InboxLike d.inbox inbox →
      List.Forall₂ OutboxLike d.outbox outbox →
      Resembles d { d with
        revisions := revisions
        manifests := manifests
        results := results
        inbox := inbox
        outbox := outbox }

variable {D} in
theorem Resembles.outbox {d d' : Db} (h : D.Resembles d d') :
    List.Forall₂ OutboxLike d.outbox d'.outbox := by
  cases h
  assumption

theorem resembles_empty : D.Resembles Db.empty Db.empty := ⟨.nil, .nil, .nil, .nil, .nil⟩

/-! ## Manifests -/

/-- two selected revisions of corresponding texts. -/
def SelectedLike (s s' : ManifestSource) : Prop :=
  ∃ body, D.text s.body body ∧ s.contentSha256 = C.textDigest s.body ∧
    s' = { s with
      contentSha256 := C.textDigest body
      body := body }

/-- two canonical manifests of corresponding texts. -/
def CanonicalLike (m m' : CanonicalManifest) : Prop :=
  ∃ text digest, D.ManifestDigest m.sha256 digest ∧
    m' = { m with
      text := text
      sha256 := digest }

variable {D}

theorem contractSource_like {s s' : ManifestSource} (h : D.SelectedLike s s') :
    Likewise (SourceLike C D.text) (contractSource C s) (contractSource C s') := by
  obtain ⟨body, ht, hdigest, rfl⟩ := h
  unfold contractSource
  simp only [D.beyond ht, hdigest, ne_eq, not_true_eq_false, or_false]
  split_ifs
  · rfl
  · rfl
  · exact ⟨body, ht, rfl, rfl⟩
  · rfl

theorem contractSources_like {sources sources' : List ManifestSource}
    (h : List.Forall₂ D.SelectedLike sources sources') :
    Likewise (List.Forall₂ (SourceLike C D.text)) (sources.mapM (contractSource C))
      (sources'.mapM (contractSource C)) := by
  induction h with
  | nil => exact .nil
  | @cons s s' sources sources' hs _ ih =>
    rw [List.mapM_cons, List.mapM_cons]
    exact likewise_bind (contractSource_like hs) fun x x' hx =>
      likewise_bind ih fun l l' hl => .cons hx hl

theorem sourceLike_order {a a' b b' : ContractSource} (h : SourceLike C D.text a a')
    (h' : SourceLike C D.text b b') : orderKey a ≤ orderKey b ↔ orderKey a' ≤ orderKey b' := by
  obtain ⟨_, -, -, rfl⟩ := h
  obtain ⟨_, -, -, rfl⟩ := h'
  exact Iff.rfl

theorem selected_channels {sources sources' : List ManifestSource}
    (h : List.Forall₂ D.SelectedLike sources sources') :
    sources.map (·.channelId) = sources'.map (·.channelId) :=
  map_alike h fun _ _ hs => by
    obtain ⟨_, -, -, rfl⟩ := hs
    rfl

theorem selected_messages {sources sources' : List ManifestSource}
    (h : List.Forall₂ D.SelectedLike sources sources') : messagesOf sources = messagesOf sources' := by
  unfold messagesOf
  rw [map_alike (g := fun s : ManifestSource => (s.channelId, s.messageId)) h fun _ _ hs => by
    obtain ⟨_, -, -, rfl⟩ := hs
    rfl]

/-- **Manifests are built of corresponding sources alike.** -/
theorem build_like (manifestId ownerId runId : Uuid) (windowStart windowEnd : Instant)
    {sources sources' : List ManifestSource} (h : List.Forall₂ D.SelectedLike sources sources') :
    Likewise D.CanonicalLike (build C manifestId ownerId runId windowStart windowEnd sources)
      (build C manifestId ownerId runId windowStart windowEnd sources') := by
  have hchannels : channelCountOf sources' = channelCountOf sources := by
    unfold channelCountOf
    rw [selected_channels h]
  unfold build
  simp only [bind, Except.bind, pure, Except.pure, throw, throwThe, MonadExceptOf.throw,
    ← h.length_eq, hchannels, ← selected_messages h]
  split_ifs
  · rfl
  · rfl
  · rfl
  · rfl
  refine likewise_bind (contractSources_like h) fun l l' hselected => ?_
  have hsorted : List.Forall₂ (SourceLike C D.text)
      (l.insertionSort fun a b => orderKey a ≤ orderKey b)
      (l'.insertionSort fun a b => orderKey a ≤ orderKey b) :=
    sort_alike hselected fun _ _ _ _ h h' => sourceLike_order h h'
  have hlike : ManifestsLike C D.text
      ⟨manifestId, ownerId, runId, windowStart, windowEnd,
        l.insertionSort fun a b => orderKey a ≤ orderKey b⟩
      ⟨manifestId, ownerId, runId, windowStart, windowEnd,
        l'.insertionSort fun a b => orderKey a ≤ orderKey b⟩ := ⟨_, hsorted, rfl⟩
  have haccepts := D.accepts hlike
  rcases ht : C.canonicalText ⟨manifestId, ownerId, runId, windowStart, windowEnd,
      l.insertionSort fun a b => orderKey a ≤ orderKey b⟩ with _ | t <;>
    rcases ht' : C.canonicalText ⟨manifestId, ownerId, runId, windowStart, windowEnd,
      l'.insertionSort fun a b => orderKey a ≤ orderKey b⟩ with _ | t' <;>
    rw [ht, ht'] at haccepts
  · rfl
  · cases haccepts
  · cases haccepts
  · refine ⟨t', C.textDigest t', ⟨_, _, t, t', hlike, ht, ht', rfl, rfl⟩, ?_⟩
    rw [hsorted.length_eq]

end Disguise

end ChannelDigests
