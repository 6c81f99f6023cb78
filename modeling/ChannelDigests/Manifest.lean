import ChannelDigests.Contracts
import Mathlib.Data.List.Sort
import Mathlib.Data.Prod.Lex
import Mathlib.Data.List.Dedup
import Mathlib.Data.Int.Order.Basic

/-!
# The canonical manifest

`ManifestBuilder::build` turns the selected revisions of one run into the contract manifest, sorts
its sources and encodes it.

* `ManifestSource`, `CanonicalManifest`   what is selected, and what is committed;
* `contractSource`    one source in its contract form;
* `orderKey`          the order of the sources in the text;
* `build`             the whole builder.
-/

namespace ChannelDigests

/-- one selected revision. -/
structure ManifestSource where
  revisionId : Uuid
  channelId : Uuid
  channelUsername : String
  channelDisplayName : Option String
  messageId : Int
  contentSha256 : Digest
  publishedAt : Instant
  canonicalLink : String
  body : String
  revisionIndex : Nat
  deriving DecidableEq

structure CanonicalManifest where
  manifestId : Uuid
  ownerId : Uuid
  runId : Uuid
  text : String
  sha256 : Digest
  sourceCount : Nat
  channelCount : Nat
  /-- the messages of the sources, without repetition. -/
  messages : List (Uuid × Int)
  deriving DecidableEq

inductive ManifestError where
  | limit
  | invalid
  deriving DecidableEq

/-- the characters that `str::trim` removes. -/
def whiteSpace (c : Char) : Bool :=
  (9 ≤ c.toNat && c.toNat ≤ 13) || (0x2000 ≤ c.toNat && c.toNat ≤ 0x200a) ||
    [0x20, 0x85, 0xa0, 0x1680, 0x2028, 0x2029, 0x202f, 0x205f, 0x3000].contains c.toNat

/-- `str::trim`, as characters. -/
def trim (s : String) : List Char :=
  ((s.toList.dropWhile whiteSpace).reverse.dropWhile whiteSpace).reverse

/-- the display name if it shows anything, else the username, at most 80 characters. -/
def channelLabel (displayName : Option String) (username : String) : String :=
  match displayName.map trim with
  | some (c :: cs) => String.ofList ((c :: cs).take 80)
  | _ => String.ofList (username.toList.take 80)

/-- `https://t.me/<username>/<message>`. -/
def publicLink (username : String) (messageId : Int) : String :=
  s!"https://t.me/{username}/{messageId}"

/-- `u128::MAX`, which a message id that is no `u128` is ordered as. -/
def u128Max : Nat := 340282366920938463463374607431768211455

/-- `order_key`: publication, channel reference, numeric message id, revision. -/
def orderKey (s : ContractSource) : Lex (Int × Lex (Nat × Lex (Nat × Nat))) :=
  toLex (s.publishedAt, toLex (s.channelRef,
    toLex (if 0 ≤ s.messageId then s.messageId.toNat else u128Max, s.revision)))

variable (C : Contracts)

/-- `contract_source`. -/
def contractSource (source : ManifestSource) : Except ManifestError ContractSource :=
  if maxContentBytes < source.body.utf8ByteSize then .error .limit
  else if source.canonicalLink ≠ publicLink source.channelUsername source.messageId ∨
      source.contentSha256 ≠ C.textDigest source.body then .error .invalid
  else if !C.wireTimestamp source.publishedAt then .error .invalid
  else .ok
    { revisionRef := source.revisionId
      channelRef := source.channelId
      channelLabel := channelLabel source.channelDisplayName source.channelUsername
      messageId := source.messageId
      publishedAt := source.publishedAt
      content := source.body
      contentDigest := C.textDigest source.body
      publicLink := some source.canonicalLink
      revision := source.revisionIndex }

/-- `BTreeSet` of the messages: without repetition, in ascending order. -/
def messagesOf (sources : List ManifestSource) : List (Uuid × Int) :=
  ((sources.map fun s => (s.channelId, s.messageId)).dedup).insertionSort
    fun a b => toLex a ≤ toLex b

theorem mem_messagesOf {sources : List ManifestSource} {l : Uuid × Int} :
    l ∈ messagesOf sources ↔ ∃ s ∈ sources, (s.channelId, s.messageId) = l := by
  unfold messagesOf
  rw [(List.perm_insertionSort _ _).mem_iff, List.mem_dedup, List.mem_map]

/-- how many channels the sources are of. -/
def channelCountOf (sources : List ManifestSource) : Nat :=
  (sources.map (·.channelId)).dedup.length

/-- `ManifestBuilder::build`. -/
def build (manifestId ownerId runId : Uuid) (windowStart windowEnd : Instant)
    (sources : List ManifestSource) : Except ManifestError CanonicalManifest := do
  if maxSources < sources.length then throw .limit
  if maxChannels < channelCountOf sources then throw .limit
  if !(C.wireTimestamp windowStart && C.wireTimestamp windowEnd) then throw .invalid
  if !C.digestWindow windowStart windowEnd then throw .invalid
  let selected ← sources.mapM (contractSource C)
  let manifest : ContractManifest :=
    { manifestRef := manifestId
      owner := ownerId
      digestRunId := runId
      windowStart
      windowEnd
      sources := selected.insertionSort fun a b => orderKey a ≤ orderKey b }
  match C.canonicalText manifest with
  | none => throw .invalid
  | some text =>
    return {
      manifestId, ownerId, runId, text
      sha256 := C.textDigest text
      sourceCount := manifest.sources.length
      channelCount := channelCountOf sources
      messages := messagesOf sources }

/-- what a built manifest is: the canonical text of the sources in their contract form, sorted. -/
structure Built (manifestId ownerId runId : Uuid) (windowStart windowEnd : Instant)
    (sources : List ManifestSource) (manifest : CanonicalManifest) : Prop where
  manifestId_eq : manifest.manifestId = manifestId
  ownerId_eq : manifest.ownerId = ownerId
  runId_eq : manifest.runId = runId
  sha256_eq : manifest.sha256 = C.textDigest manifest.text
  messages_eq : manifest.messages = messagesOf sources
  sourceCount_eq : manifest.sourceCount = sources.length
  channelCount_eq : manifest.channelCount = channelCountOf sources
  text : ∃ selected, sources.mapM (contractSource C) = .ok selected ∧
    C.canonicalText
      { manifestRef := manifestId
        owner := ownerId
        digestRunId := runId
        windowStart
        windowEnd
        sources := selected.insertionSort fun a b => orderKey a ≤ orderKey b } = some manifest.text

variable {C}

theorem contractSource_message {source : ManifestSource} {s : ContractSource}
    (h : contractSource C source = .ok s) :
    s.channelRef = source.channelId ∧ s.messageId = source.messageId := by
  unfold contractSource at h
  split_ifs at h
  cases h
  exact ⟨rfl, rfl⟩

/-- the contract sources are those of the selected ones, one for one. -/
theorem mapM_contractSource {sources : List ManifestSource} {selected : List ContractSource}
    (h : sources.mapM (contractSource C) = .ok selected) :
    List.Forall₂ (fun source s => contractSource C source = .ok s) sources selected := by
  induction sources generalizing selected with
  | nil =>
    cases h
    exact .nil
  | cons source sources ih =>
    rw [List.mapM_cons] at h
    rcases hsource : contractSource C source with x | s
    · rw [hsource] at h
      cases h
    rcases hrest : sources.mapM (contractSource C) with x | rest
    · rw [hsource, hrest] at h
      cases h
    rw [hsource, hrest] at h
    cases h
    exact .cons hsource (ih hrest)

/-- the contract sources name the messages of the selected ones. -/
theorem mapM_contractSource_messages {sources : List ManifestSource}
    {selected : List ContractSource} (h : sources.mapM (contractSource C) = .ok selected) :
    selected.map (fun s => (s.channelRef, s.messageId)) =
      sources.map fun s => (s.channelId, s.messageId) := by
  have hall := mapM_contractSource h
  clear h
  induction hall with
  | nil => rfl
  | cons hs _ ih =>
    obtain ⟨e1, e2⟩ := contractSource_message hs
    rw [List.map_cons, List.map_cons, ih, e1, e2]

theorem build_ok {manifestId ownerId runId : Uuid} {windowStart windowEnd : Instant}
    {sources : List ManifestSource} {manifest : CanonicalManifest}
    (h : build C manifestId ownerId runId windowStart windowEnd sources = .ok manifest) :
    Built C manifestId ownerId runId windowStart windowEnd sources manifest := by
  unfold build at h
  simp only [bind, Except.bind, pure, Except.pure, throw, throwThe, MonadExceptOf.throw] at h
  split_ifs at h
  split at h
  · cases h
  next selected hsel =>
  split at h
  · cases h
  next text htext =>
  cases h
  have hlength : (selected.insertionSort fun a b => orderKey a ≤ orderKey b).length =
      sources.length := by
    rw [List.length_insertionSort]
    exact (mapM_contractSource hsel).length_eq.symm
  exact ⟨rfl, rfl, rfl, rfl, rfl, hlength, rfl, selected, hsel, htext⟩

end ChannelDigests
