import ChannelDigests.Manifest

/-!
# The owner's reads

The routes under `/v1`: what a request carries, the one statement that each route sends, the read
of a recap at Knowledge, and the response.

* `Request`, `Response`          a request after its path and query are read, and its answer;
* `ViewContracts`                what the routes take from the contract and identifier crates;
* `authorize`, `requireOwner`    the two gates before every route;
* `KnowledgeResultReader.read`   one bounded read at Knowledge, with its linkage verified;
* `listSubscriptions`, `getManifest`, `listResults`, `getResult`   the four routes;
* `router`                       the routes behind their gates.

A handler asks whether its statement succeeds and asks Knowledge; both are questions of the
signature `interface`.
-/

namespace ChannelDigests
open Lib

/-! ## Requests and responses -/

/-- `PageQuery`; a query without `page_size` has the default. -/
structure PageQuery where
  pageSize : Nat
  deriving DecidableEq

def defaultPageSize : Nat := 50

/-- the route of a request; `none` is a path or a query that the extractor refuses. -/
inductive Route where
  | subscriptions (page : Option PageQuery)
  | manifest (manifestId : Option Uuid)
  | results (page : Option PageQuery)
  | result (resultId : Option Uuid)
  deriving DecidableEq

/-- a request; a header that is absent or no text is `none`. -/
structure Request where
  authorization : Option String
  ownerId : Option String
  digestRunId : Option String
  manifestDigest : Option String
  route : Route
  deriving DecidableEq

inductive Status where
  | ok
  | badRequest
  | unauthorized
  | notFound
  | gone
  | internalServerError
  | badGateway
  | serviceUnavailable
  deriving DecidableEq

/-- `ChannelDigestSubscriptionView`. -/
structure SubscriptionView where
  subscriptionId : Uuid
  channelUsername : String
  enabled : Bool
  deriving DecidableEq

/-- `ChannelDigestResultSummary`. -/
structure ResultSummary where
  resultId : Uuid
  runId : Uuid
  outcome : Outcome
  safeFailureClass : Option String
  createdAt : Instant
  deriving DecidableEq

/-- `ChannelDigestResultView`. -/
structure ResultView (Members : Type) where
  resultId : Uuid
  runId : Uuid
  outcome : Outcome
  recapId : Option Uuid
  citationCount : Option Nat
  resultDigest : Option Digest
  recap : Option Members
  safeFailureClass : Option String
  deriving DecidableEq

inductive Body (Members : Type) where
  | empty
  | subscriptions (subscriptions : List SubscriptionView)
  | manifest (text : String)
  | results (results : List ResultSummary)
  | result (view : ResultView Members)
  deriving DecidableEq

structure Response (Members : Type) where
  status : Status
  contentType : Option String
  cacheControl : Option String
  body : Body Members
  deriving DecidableEq

/-- a status without a body. -/
def Response.bare {Members : Type} (status : Status) : Response Members :=
  ⟨status, none, none, .empty⟩

/-- a JSON body. -/
def Response.json {Members : Type} (body : Body Members) : Response Members :=
  ⟨.ok, some "application/json", none, body⟩

/-! ## What a handler asks -/

/-- the envelope that Knowledge answers with. -/
structure KnowledgeEnvelope (Value : Type) where
  analysisId : Uuid
  algorithm : String
  /-- `none` is a text that is no lowercase SHA-256. -/
  hex : Option Digest
  recap : Value

/-- the parsers of the crates, and JSON. -/
structure ViewContracts where
  Value : Type
  Members : Type
  /-- `UserId::parse`, `ChannelDigestRunId::parse` and `DigestHex::parse` on a header. -/
  userId : String → Option Uuid
  digestRunId : String → Option Uuid
  digestHex : String → Option Digest
  /-- the parsers of stored values. -/
  subscriptionRef : Uuid → Bool
  resultRef : Uuid → Bool
  runRef : Uuid → Bool
  channelUsername : String → Bool
  failureClass : String → Bool
  timestamp : Instant → Bool
  contentDigest : Digest → Bool
  /-- `serde_json::from_slice::<KnowledgeEnvelope>` and `Value::as_object`. -/
  envelope : List UInt8 → Option (KnowledgeEnvelope Value)
  asObject : Value → Option Members

/-- `GET <base>/internal/channel-digest-results/<analysis>` with its bearer. -/
structure KnowledgeRequest where
  baseUrl : String
  analysisId : Uuid
  bearer : String
  deriving DecidableEq

/-- an HTTP response; a chunk that does not arrive is `none`. -/
structure KnowledgeResponse where
  status : Nat
  contentType : Option String
  contentLength : Option Nat
  chunks : List (Option (List UInt8))
  deriving DecidableEq

/-- a handler asks for a statement, which may fail, and it asks Knowledge. -/
inductive Inquiry where
  | statement
  | knowledge (request : KnowledgeRequest)
  deriving DecidableEq

/-- the answers: whether the statement succeeds, and the response if one came. -/
abbrev Inquiry.Answer : Inquiry → Type
  | .statement => Bool
  | .knowledge _ => Option KnowledgeResponse

/-- the signature of the handlers. -/
abbrev interface : Lib.Signature := ⟨Db, Inquiry, Inquiry.Answer⟩

/-- a handler with errors `ε` -/
abbrev Handler (ε α : Type) := Lib.Prog interface ε α

/-- one `select`; `none` when the statement fails. -/
def select {ε α : Type} (rows : Db → α) : Handler ε (Option α) :=
  .ask .statement fun succeeds =>
    if succeeds = true then .act id fun d => .done (.ok (some (rows d))) else .done (.ok none)

/-! ## The gates -/

/-- the bytes of a text. -/
def utf8 (s : String) : List UInt8 := s.toList.flatMap String.utf8EncodeChar

/-- `constant_time_equal`. -/
def constantTimeEqual (left right : List UInt8) : Bool :=
  let difference := (List.range (max left.length right.length)).foldl
    (fun difference index => difference |||
      (left.getD index 0 ^^^ right.getD index 0).toNat) (left.length ^^^ right.length)
  difference == 0

theorem xor_length_eq_zero {m n : Nat} : m ^^^ n = 0 ↔ m = n := by
  refine ⟨fun h => ?_, fun h => by rw [h, Nat.xor_self]⟩
  have h' : (m ^^^ n) ^^^ n = 0 ^^^ n := congrArg (· ^^^ n) h
  rwa [Nat.xor_assoc, Nat.xor_self, Nat.xor_zero, Nat.zero_xor] at h'

theorem foldl_or_eq_zero (f : Nat → Nat) (indices : List Nat) (difference : Nat) :
    indices.foldl (fun difference index => difference ||| f index) difference = 0 ↔
      difference = 0 ∧ ∀ index ∈ indices, f index = 0 := by
  induction indices generalizing difference with
  | nil => simp
  | cons index indices ih =>
    rw [List.foldl_cons, ih, Nat.or_eq_zero_iff, List.forall_mem_cons, and_assoc]

/-- **The comparison of the bearer is equality.** -/
theorem constantTimeEqual_iff {left right : List UInt8} :
    constantTimeEqual left right = true ↔ left = right := by
  unfold constantTimeEqual
  rw [beq_iff_eq, foldl_or_eq_zero, xor_length_eq_zero]
  constructor
  · rintro ⟨hlength, hbytes⟩
    refine List.ext_getElem hlength fun index hl hr => ?_
    have hzero := hbytes index (List.mem_range.mpr (Nat.lt_of_lt_of_le hl (Nat.le_max_left _ _)))
    rw [← List.getElem_eq_getD (h := hl) 0, ← List.getElem_eq_getD (h := hr) 0] at hzero
    have := UInt8.toNat_inj.mp (hzero.trans UInt8.toNat_zero.symm)
    exact UInt8.xor_eq_zero_iff.mp this
  · rintro rfl
    exact ⟨rfl, fun index _ => by rw [UInt8.xor_self]; rfl⟩

/-- `strip_prefix("Bearer ")`, as characters. -/
def stripBearer (value : String) : Option String :=
  if "Bearer ".toList.isPrefixOf value.toList then
    some (String.ofList (value.toList.drop "Bearer ".length))
  else none

structure KnowledgeResultReader where
  baseUrl : String
  serviceSecret : String
  maxResponseBytes : Nat

structure ApiState where
  secret : String
  pageLimit : Nat
  resultReader : KnowledgeResultReader

/-- the service bearer is supplied. -/
def authorize (state : ApiState) (request : Request) : Bool :=
  (request.authorization.bind stripBearer).any fun supplied =>
    constantTimeEqual (utf8 supplied) (utf8 state.secret)

variable (V : ViewContracts)

/-- the owner that every read is scoped to. -/
def requireOwner (request : Request) : Option Uuid := request.ownerId.bind V.userId

/-! ## The read at Knowledge -/

inductive KnowledgeResultReadError where
  | unavailable
  | invalid
  deriving DecidableEq

structure KnowledgeResultProjection (Value : Type) where
  analysisId : Uuid
  resultDigest : Digest
  recap : Value

/-- the media type before any parameter is `application/json`. -/
def jsonContent (value : String) : Bool :=
  (trim (String.ofList (value.toList.takeWhile (· ≠ ';')))).map Char.toLower =
    "application/json".toList

/-- the chunks of a body, as long as they fit. -/
def collect (maxBytes : Nat) (bytes : List UInt8) :
    List (Option (List UInt8)) → Except KnowledgeResultReadError (List UInt8)
  | [] => .ok bytes
  | none :: _ => .error .unavailable
  | some chunk :: chunks =>
    if maxBytes < bytes.length + chunk.length then .error .invalid
    else collect maxBytes (bytes ++ chunk) chunks

namespace KnowledgeResultReader
variable (reader : KnowledgeResultReader)

/-- what the reader accepts of a response; a stored digest is a lowercase SHA-256. -/
def verify (analysisId : Uuid) (expectedDigest : Digest) (response : Option KnowledgeResponse) :
    Except KnowledgeResultReadError (KnowledgeResultProjection V.Value) :=
  match response with
  | none => .error .unavailable
  | some response =>
    if 500 ≤ response.status ∧ response.status < 600 then .error .unavailable
    else if response.status ≠ 200 then .error .invalid
    else if !response.contentType.any jsonContent then .error .invalid
    else if response.contentLength.any (reader.maxResponseBytes < ·) then .error .invalid
    else
      match collect reader.maxResponseBytes [] response.chunks with
      | .error e => .error e
      | .ok bytes =>
        match V.envelope bytes with
        | none => .error .invalid
        | some envelope =>
          if envelope.analysisId ≠ analysisId ∨ envelope.algorithm ≠ "sha256" ∨
              envelope.hex ≠ some expectedDigest ∨ (V.asObject envelope.recap).isNone then
            .error .invalid
          else .ok ⟨analysisId, expectedDigest, envelope.recap⟩

/-- `KnowledgeResultReader::read`. -/
def read (analysisId : Uuid) (expectedDigest : Digest) :
    Handler KnowledgeResultReadError (KnowledgeResultProjection V.Value) := do
  let response ← Prog.question (S := interface)
    (.knowledge ⟨reader.baseUrl, analysisId, reader.serviceSecret⟩)
  Prog.lift (reader.verify V analysisId expectedDigest response)

end KnowledgeResultReader

/-! ## The routes -/

/-- `MAX_REQUESTED_PAGE_SIZE`. -/
def maxRequestedPageSize : Nat := 100

/-- `checked_page_size`. -/
def checkedPageSize (state : ApiState) (page : PageQuery) : Except Status Nat :=
  if page.pageSize = 0 ∨ maxRequestedPageSize < page.pageSize then .error .badRequest
  else .ok (min page.pageSize state.pageLimit)

/-- `order by key desc limit …`. -/
def newestRows {ρ κ : Type} [LinearOrder κ] (key : ρ → κ) (limit : Nat) (rows : List ρ) : List ρ :=
  (rows.insertionSort fun a b => key b ≤ key a).take limit

/-- the subscriptions of an owner, joined with their channels. -/
def Db.subscriptionRows (d : Db) (owner : Uuid) (limit : Nat) : List (Uuid × String × Bool) :=
  (newestRows (fun row => toLex (row.1.firstActivatedAt, row.1.subscriptionId)) limit
    ((d.subscriptions.filter fun s => s.ownerId = owner).flatMap fun s =>
      (d.channels.filter fun c => c.channelId = s.channelId).map fun c => (s, c))).map
    fun row => (row.1.subscriptionId, row.2.username, row.1.enabled)

def subscriptionView : Uuid × String × Bool → Option SubscriptionView
  | (subscriptionId, username, enabled) =>
    if V.subscriptionRef subscriptionId && V.channelUsername username then
      some ⟨subscriptionId, username, enabled⟩
    else none

def listSubscriptions (state : ApiState) (owner : Uuid) (page : PageQuery) :
    Handler Empty (Response V.Members) :=
  match checkedPageSize state page with
  | .error status => pure (.bare status)
  | .ok limit => do
    match ← select fun d => d.subscriptionRows owner limit with
    | none => pure (.bare .serviceUnavailable)
    | some rows =>
      match rows.mapM (subscriptionView V) with
      | some subscriptions => pure (.json (.subscriptions subscriptions))
      | none => pure (.bare .internalServerError)

/-- the text of the one manifest with this identity, owner, run and digest. -/
def Db.manifestText (d : Db) (manifestId owner runId : Uuid) (digest : Digest) :
    Option (Option String) :=
  (d.manifests.find? fun m => m.manifestId = manifestId && m.ownerId = owner && m.runId = runId &&
    m.sha256 = digest).map (·.canonicalText)

def getManifest (owner manifestId : Uuid) (request : Request) :
    Handler Empty (Response V.Members) :=
  match request.digestRunId.bind V.digestRunId, request.manifestDigest.bind V.digestHex with
  | some runId, some digest => do
    match ← select fun d => d.manifestText manifestId owner runId digest with
    | some (some (some text)) => pure (.json (.manifest text))
    | some (some none) => pure (.bare .gone)
    | some none => pure (.bare .notFound)
    | none => pure (.bare .serviceUnavailable)
  | _, _ => pure (.bare .notFound)

/-- the results of an owner. -/
def Db.resultRows (d : Db) (owner : Uuid) (limit : Nat) : List DigestResult :=
  newestRows (fun x => toLex (x.createdAt, x.resultId)) limit
    (d.results.filter fun x => x.ownerId = owner)

def resultSummary (row : DigestResult) : Option ResultSummary :=
  if V.resultRef row.resultId && V.runRef row.runId && row.safeFailureClass.all V.failureClass &&
      V.timestamp row.createdAt then
    some ⟨row.resultId, row.runId, row.outcome, row.safeFailureClass, row.createdAt⟩
  else none

def listResults (state : ApiState) (owner : Uuid) (page : PageQuery) :
    Handler Empty (Response V.Members) :=
  match checkedPageSize state page with
  | .error status => pure (.bare status)
  | .ok limit => do
    match ← select fun d => d.resultRows owner limit with
    | none => pure (.bare .serviceUnavailable)
    | some rows =>
      match rows.mapM (resultSummary V) with
      | some results => pure (.json (.results results))
      | none => pure (.bare .internalServerError)

/-- the view of a failed result. -/
def failedView (row : DigestResult) : Except Status (ResultView V.Members) :=
  if row.safeFailureClass.all V.failureClass then
    .ok ⟨row.resultId, row.runId, row.outcome, none, none, none, none, row.safeFailureClass⟩
  else .error .internalServerError

/-- the view of a result with its recap. -/
def recapView (row : DigestResult) (recapId : Uuid) (projection : KnowledgeResultProjection V.Value) :
    Except Status (ResultView V.Members) :=
  match V.asObject projection.recap with
  | none => .error .badGateway
  | some members =>
    if 65535 < row.citationCount then .error .internalServerError
    else if !V.contentDigest projection.resultDigest then .error .badGateway
    else .ok ⟨row.resultId, row.runId, row.outcome, some recapId, some row.citationCount,
      some projection.resultDigest, some members, none⟩

/-- the status of a failed read at Knowledge. -/
def KnowledgeResultReadError.status : KnowledgeResultReadError → Status
  | .unavailable => .serviceUnavailable
  | .invalid => .badGateway

/-- `result_view`. -/
def resultView (reader : KnowledgeResultReader) (row : DigestResult) :
    Handler Status (ResultView V.Members) :=
  if !(V.resultRef row.resultId && V.runRef row.runId) then Prog.fail .internalServerError
  else if row.outcome = .failed then Prog.lift (failedView V row)
  else
    match row.recapId, row.resultDigest with
    | some recapId, some digest => do
      let projection ← (reader.read V recapId digest).mapError KnowledgeResultReadError.status
      Prog.lift (recapView V row recapId projection)
    | _, _ => Prog.fail .badGateway

/-- the result of an owner. -/
def Db.resultOf (d : Db) (resultId owner : Uuid) : Option DigestResult :=
  d.results.find? fun x => x.resultId = resultId && x.ownerId = owner

def getResult (state : ApiState) (owner resultId : Uuid) : Handler Empty (Response V.Members) := do
  match ← select fun d => d.resultOf resultId owner with
  | none => pure (.bare .serviceUnavailable)
  | some none => pure (.bare .notFound)
  | some (some row) =>
    match ← (resultView V state.resultReader row).outcome with
    | .ok view => pure (.json (.result view))
    | .error status => pure (.bare status)

/-! ## The router -/

/-- a route behind its two gates. -/
def routed (state : ApiState) (request : Request) : Handler Empty (Response V.Members) :=
  if !authorize state request then pure (.bare .unauthorized)
  else
    match requireOwner V request with
    | none => pure (.bare .unauthorized)
    | some owner =>
      match request.route with
      | .subscriptions (some page) => listSubscriptions V state owner page
      | .manifest (some manifestId) => getManifest V owner manifestId request
      | .results (some page) => listResults V state owner page
      | .result (some resultId) => getResult V state owner resultId
      | _ => pure (.bare .badRequest)

/-- every response is marked `no-store`. -/
def noStore {Members : Type} (response : Response Members) : Response Members :=
  { response with cacheControl := some "no-store" }

/-- the router under `/v1`. -/
def router (state : ApiState) (request : Request) : Handler Empty (Response V.Members) := do
  let response ← routed V state request
  pure (noStore response)

end ChannelDigests
