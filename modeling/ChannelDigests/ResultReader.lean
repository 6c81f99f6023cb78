import ChannelDigests.Api

/-!
# The recap of a result, as it arrives

The read at Knowledge on the texts and bytes of the wire: the expected digest is a text, the body
comes in chunks, and the transfer may fail after any of them.

* `isSha256Hex`              64 lowercase hexadecimal digits;
* `Transfer`, `transfer`     the loop over the chunks, one step for each;
* `transfer_eq`              what it leaves is a function of the bytes that arrived;
* `readRecap`                the whole read of one reply;
* `readRecap_exact`          **a recap is returned only when it is the linked one, however it
  arrives**;
* `verify_eq`                the reader of the API is this one.
-/

namespace ChannelDigests
open Lib

/-! ## The text of a digest -/

/-- an ASCII digit or one of `a` to `f`. -/
def hexByte (byte : UInt8) : Bool :=
  (48 ≤ byte.toNat && byte.toNat ≤ 57) || (97 ≤ byte.toNat && byte.toNat ≤ 102)

/-- `is_sha256_hex`, on the bytes of the text. -/
def isSha256Hex (value : String) : Bool :=
  (utf8 value).length = 64 && (utf8 value).all hexByte

def hexDigit (c : Char) : Bool := ('0' ≤ c && c ≤ '9') || ('a' ≤ c && c ≤ 'f')

theorem hexDigit_iff {c : Char} :
    hexDigit c = true ↔ 48 ≤ c.toNat ∧ c.toNat ≤ 57 ∨ 97 ≤ c.toNat ∧ c.toNat ≤ 102 := by
  unfold hexDigit
  simp only [Bool.or_eq_true, Bool.and_eq_true, decide_eq_true_eq, Char.le_def,
    UInt32.le_iff_toNat_le]
  rfl

theorem hexByte_iff {n : Nat} (h : n < 256) :
    hexByte (UInt8.ofNat n) = true ↔ 48 ≤ n ∧ n ≤ 57 ∨ 97 ≤ n ∧ n ≤ 102 := by
  unfold hexByte
  rw [UInt8.toNat_ofNat_of_lt' h]
  simp only [Bool.or_eq_true, Bool.and_eq_true, decide_eq_true_eq]

/-- the bytes of a character are such bytes, if it is such a digit: one byte then. -/
theorem utf8EncodeChar_hex (c : Char) :
    (String.utf8EncodeChar c).all hexByte = true ↔ hexDigit c = true := by
  rw [hexDigit_iff]
  have hval : c.val.toNat = c.toNat := rfl
  unfold String.utf8EncodeChar
  rw [hval]
  dsimp only
  split_ifs with h1 h2 h3
  · rw [List.all_cons, List.all_nil, Bool.and_true]
    exact hexByte_iff (by omega)
  -- the first byte of a longer encoding is at least `0xc0`.
  · rw [List.all_cons, Bool.and_eq_true, hexByte_iff (by omega)]
    omega
  · rw [List.all_cons, Bool.and_eq_true, hexByte_iff (by omega)]
    omega
  · rw [List.all_cons, Bool.and_eq_true, hexByte_iff (by omega)]
    omega

/-- **The check is on the characters**: 64 lowercase hexadecimal digits. -/
theorem isSha256Hex_iff {value : String} :
    isSha256Hex value = true ↔ value.length = 64 ∧ ∀ c ∈ value.toList, hexDigit c = true := by
  have hall : (utf8 value).all hexByte = true ↔ ∀ c ∈ value.toList, hexDigit c = true := by
    unfold utf8
    rw [List.all_flatMap, List.all_eq_true]
    exact forall₂_congr fun c _ => utf8EncodeChar_hex c
  have hlength : (∀ c ∈ value.toList, hexDigit c = true) →
      (utf8 value).length = value.length := by
    intro h
    unfold utf8
    rw [← String.length_toList]
    generalize value.toList = text at h
    induction text with
    | nil => rfl
    | cons c text ih =>
      have hc := hexDigit_iff.mp (h c List.mem_cons_self)
      have hone : (String.utf8EncodeChar c).length = 1 := by
        rw [String.length_utf8EncodeChar, Char.utf8Size_eq_one_iff, UInt32.le_iff_toNat_le]
        show c.toNat ≤ 127
        omega
      rw [List.flatMap_cons, List.length_append, hone, ih fun x hx => h x (List.mem_cons_of_mem _ hx),
        List.length_cons, Nat.add_comm]
  unfold isSha256Hex
  rw [Bool.and_eq_true, decide_eq_true_eq, hall]
  constructor
  · rintro ⟨hl, hd⟩
    exact ⟨(hlength hd).symm.trans hl, hd⟩
  · rintro ⟨hl, hd⟩
    exact ⟨(hlength hd).trans hl, hd⟩

/-! ## The transfer -/

/-- the loop over the chunks: the bytes so far, or the class it stopped with. -/
inductive Transfer where
  | reading (bytes : List UInt8)
  | stopped (bytes : List UInt8) (error : KnowledgeResultReadError)
  deriving DecidableEq

namespace Transfer

/-- what the loop holds. -/
def buffer : Transfer → List UInt8
  | .reading bytes => bytes
  | .stopped bytes _ => bytes

def result : Transfer → Except KnowledgeResultReadError (List UInt8)
  | .reading bytes => .ok bytes
  | .stopped _ error => .error error

/-- one round: a failed transfer ends the loop, and so does a chunk that does not fit. -/
def next (maxBytes : Nat) : Transfer → Option (List UInt8) → Transfer
  | .reading bytes, none => .stopped bytes .unavailable
  | .reading bytes, some chunk =>
    if maxBytes < bytes.length + chunk.length then .stopped bytes .invalid
    else .reading (bytes ++ chunk)
  | .stopped bytes error, _ => .stopped bytes error

end Transfer

/-- the rounds of the loop. -/
def transfer (maxBytes : Nat) (chunks : List (Option (List UInt8))) : Transfer :=
  chunks.foldl (Transfer.next maxBytes) (.reading [])

/-- `Vec::with_capacity`, before the loop. -/
def initialCapacity (maxBytes : Nat) (response : KnowledgeResponse) : Nat :=
  min (response.contentLength.getD 0) maxBytes

/-- the bytes that arrived before the transfer failed, if it did. -/
def arrived : List (Option (List UInt8)) → List UInt8
  | [] => []
  | none :: _ => []
  | some chunk :: chunks => chunk ++ arrived chunks

/-- the transfer fails. -/
def fails (chunks : List (Option (List UInt8))) : Bool := chunks.contains none

section
variable {maxBytes : Nat} {chunks : List (Option (List UInt8))} {bytes chunk : List UInt8}

theorem next_none : Transfer.next maxBytes (.reading bytes) none = .stopped bytes .unavailable := rfl

theorem next_long (h : maxBytes < bytes.length + chunk.length) :
    Transfer.next maxBytes (.reading bytes) (some chunk) = .stopped bytes .invalid := if_pos h

theorem next_fits (h : ¬ maxBytes < bytes.length + chunk.length) :
    Transfer.next maxBytes (.reading bytes) (some chunk) = .reading (bytes ++ chunk) := if_neg h

theorem foldl_stopped (error : KnowledgeResultReadError) :
    chunks.foldl (Transfer.next maxBytes) (.stopped bytes error) = .stopped bytes error := by
  induction chunks with
  | nil => rfl
  | cons chunk chunks ih =>
    rw [List.foldl_cons]
    exact ih

/-- **What the loop leaves** is a function of the bytes that arrived: too many stop it, then a
failure does. -/
theorem foldl_result (h : bytes.length ≤ maxBytes) :
    (chunks.foldl (Transfer.next maxBytes) (.reading bytes)).result =
      if maxBytes < bytes.length + (arrived chunks).length then .error .invalid
      else if fails chunks = true then .error .unavailable
      else .ok (bytes ++ arrived chunks) := by
  induction chunks generalizing bytes with
  | nil =>
    have hfit : ¬ maxBytes < bytes.length + 0 := Nat.not_lt.mpr h
    have hnone : ¬ fails [] = true := by decide
    rw [arrived, List.length_nil, if_neg hfit, if_neg hnone, List.append_nil]
    rfl
  | cons chunk chunks ih =>
    rw [List.foldl_cons]
    cases chunk with
    | none =>
      have hfit : ¬ maxBytes < bytes.length + 0 := Nat.not_lt.mpr h
      have hfails : fails (none :: chunks) = true := by simp [fails]
      rw [arrived, List.length_nil, if_neg hfit, if_pos hfails, next_none, foldl_stopped]
      rfl
    | some chunk =>
      have hfails : fails (some chunk :: chunks) = fails chunks := by simp [fails]
      rw [arrived, List.length_append, ← Nat.add_assoc, hfails]
      by_cases hlong : maxBytes < bytes.length + chunk.length
      · rw [next_long hlong, foldl_stopped, if_pos (Nat.lt_add_right _ hlong)]
        rfl
      · have hfit : (bytes ++ chunk).length ≤ maxBytes := by
          rw [List.length_append]
          exact Nat.not_lt.mp hlong
        rw [next_fits hlong, ih hfit, List.length_append, List.append_assoc]

/-- never more than the limit is held, after any number of rounds. -/
theorem foldl_buffer (h : bytes.length ≤ maxBytes) :
    (chunks.foldl (Transfer.next maxBytes) (.reading bytes)).buffer.length ≤ maxBytes := by
  induction chunks generalizing bytes with
  | nil => exact h
  | cons chunk chunks ih =>
    rw [List.foldl_cons]
    cases chunk with
    | none =>
      rw [next_none, foldl_stopped]
      exact h
    | some chunk =>
      by_cases hlong : maxBytes < bytes.length + chunk.length
      · rw [next_long hlong, foldl_stopped]
        exact h
      · rw [next_fits hlong]
        apply ih
        rw [List.length_append]
        exact Nat.not_lt.mp hlong

theorem transfer_result : (transfer maxBytes chunks).result =
    if maxBytes < (arrived chunks).length then .error .invalid
    else if fails chunks = true then .error .unavailable
    else .ok (arrived chunks) := by
  have hempty : ([] : List UInt8).length ≤ maxBytes := Nat.zero_le maxBytes
  have h : (transfer maxBytes chunks).result = _ := foldl_result hempty
  rw [List.length_nil, Nat.zero_add, List.nil_append] at h
  exact h

/-- the loop of the API's reader is this one. -/
theorem collect_eq : collect maxBytes bytes chunks =
    (chunks.foldl (Transfer.next maxBytes) (.reading bytes)).result := by
  induction chunks generalizing bytes with
  | nil => rfl
  | cons chunk chunks ih =>
    rw [List.foldl_cons]
    cases chunk with
    | none =>
      rw [next_none, foldl_stopped]
      rfl
    | some chunk =>
      unfold collect
      by_cases hlong : maxBytes < bytes.length + chunk.length
      · rw [if_pos hlong, next_long hlong, foldl_stopped]
        rfl
      · rw [if_neg hlong, next_fits hlong]
        exact ih

end

/-! ## The read -/

/-- what `serde_json::from_slice::<KnowledgeEnvelope>` reads of a body; a body with a field that is
missing or unknown is not read. -/
structure ResultEnvelope (Value : Type) where
  analysisId : Uuid
  algorithm : String
  hex : String
  recap : Value

/-- `KnowledgeResultProjection`, with the digest as text. -/
structure ResultProjection (Value : Type) where
  analysisId : Uuid
  resultDigestHex : String
  recap : Value
  deriving DecidableEq

section
variable {Value : Type} (fromSlice : List UInt8 → Option (ResultEnvelope Value))
  (isObject : Value → Bool) (maxBytes : Nat)

/-- the checks on the envelope. -/
def verifyEnvelope (analysisId : Uuid) (expectedDigestHex : String)
    (envelope : ResultEnvelope Value) :
    Except KnowledgeResultReadError (ResultProjection Value) :=
  if envelope.analysisId ≠ analysisId ∨ envelope.algorithm ≠ "sha256" ∨
      !isSha256Hex envelope.hex ∨ envelope.hex ≠ expectedDigestHex ∨ !isObject envelope.recap then
    .error .invalid
  else .ok ⟨analysisId, envelope.hex, envelope.recap⟩

/-- what is read of the body. -/
def readBody (analysisId : Uuid) (expectedDigestHex : String)
    (chunks : List (Option (List UInt8))) :
    Except KnowledgeResultReadError (ResultProjection Value) :=
  match (transfer maxBytes chunks).result with
  | .error error => .error error
  | .ok bytes =>
    match fromSlice bytes with
    | none => .error .invalid
    | some envelope => verifyEnvelope isObject analysisId expectedDigestHex envelope

/-- `KnowledgeResultReader::read` on one reply; `none` is a request that could not be sent. -/
def readRecap (analysisId : Uuid) (expectedDigestHex : String) (reply : Option KnowledgeResponse) :
    Except KnowledgeResultReadError (ResultProjection Value) :=
  if !isSha256Hex expectedDigestHex then .error .invalid
  else
    match reply with
    | none => .error .unavailable
    | some response =>
      if 500 ≤ response.status ∧ response.status < 600 then .error .unavailable
      else if response.status ≠ 200 then .error .invalid
      else if !response.contentType.any jsonContent then .error .invalid
      else if response.contentLength.any (maxBytes < ·) then .error .invalid
      else readBody fromSlice isObject maxBytes analysisId expectedDigestHex response.chunks

end

/-! ## Which replies are accepted -/

/-- what is accepted before the body is read. -/
structure Acceptable (maxBytes : Nat) (response : KnowledgeResponse) : Prop where
  status : response.status = 200
  mediaType : response.contentType.any jsonContent = true
  announced : ∀ length, response.contentLength = some length → length ≤ maxBytes

/-- the envelope of the expected recap. -/
structure Linked {Value : Type} (isObject : Value → Bool) (analysisId : Uuid)
    (expectedDigestHex : String) (envelope : ResultEnvelope Value) : Prop where
  analysisId_eq : envelope.analysisId = analysisId
  algorithm_eq : envelope.algorithm = "sha256"
  hex_eq : envelope.hex = expectedDigestHex
  object : isObject envelope.recap = true

/-- the request is not sent, the server is at fault, or an acceptable reply breaks off within the
limit. -/
def Unreached (maxBytes : Nat) : Option KnowledgeResponse → Prop
  | none => True
  | some response => 500 ≤ response.status ∧ response.status < 600 ∨
      Acceptable maxBytes response ∧ fails response.chunks = true ∧
        (arrived response.chunks).length ≤ maxBytes

section
variable {Value : Type} {fromSlice : List UInt8 → Option (ResultEnvelope Value)}
  {isObject : Value → Bool} {maxBytes : Nat} {analysisId : Uuid} {expectedDigestHex : String}
  {response : KnowledgeResponse}

theorem any_lt_eq_false {length : Option Nat} :
    length.any (maxBytes < ·) = false ↔ ∀ n, length = some n → n ≤ maxBytes := by
  cases length with
  | none => simp
  | some n => simp

/-- a reply that is not acceptable is not read; an acceptable one is. -/
theorem readRecap_acceptable (hhex : isSha256Hex expectedDigestHex = true)
    (h : Acceptable maxBytes response) :
    readRecap fromSlice isObject maxBytes analysisId expectedDigestHex (some response) =
      readBody fromSlice isObject maxBytes analysisId expectedDigestHex response.chunks := by
  have hserver : ¬ (500 ≤ response.status ∧ response.status < 600) := by
    rw [h.status]
    decide
  have hannounced := any_lt_eq_false.mpr h.announced
  unfold readRecap
  rw [hhex]
  dsimp only
  rw [h.mediaType, hannounced, if_neg (by decide), if_neg hserver, if_neg (not_not.mpr h.status),
    if_neg (by decide), if_neg (by decide)]

theorem readRecap_unacceptable (hhex : isSha256Hex expectedDigestHex = true)
    (h : ¬ Acceptable maxBytes response) :
    readRecap fromSlice isObject maxBytes analysisId expectedDigestHex (some response) =
      if 500 ≤ response.status ∧ response.status < 600 then .error .unavailable
      else .error .invalid := by
  unfold readRecap
  rw [hhex]
  dsimp only
  rw [if_neg (by decide)]
  split_ifs with h1 h2 h3 h4
  · rfl
  · rfl
  · rfl
  · rfl
  · refine absurd ⟨not_not.mp h2, ?_, any_lt_eq_false.mp (Bool.eq_false_iff.mpr h4)⟩ h
    simpa using h3

theorem verifyEnvelope_linked (hhex : isSha256Hex expectedDigestHex = true)
    {envelope : ResultEnvelope Value} (h : Linked isObject analysisId expectedDigestHex envelope) :
    verifyEnvelope isObject analysisId expectedDigestHex envelope =
      .ok ⟨analysisId, expectedDigestHex, envelope.recap⟩ := by
  unfold verifyEnvelope
  rw [h.hex_eq, h.object, hhex, if_neg]
  simp [h.analysisId_eq, h.algorithm_eq]

theorem verifyEnvelope_unlinked {envelope : ResultEnvelope Value}
    (h : ¬ Linked isObject analysisId expectedDigestHex envelope) :
    verifyEnvelope isObject analysisId expectedDigestHex envelope = .error .invalid := by
  unfold verifyEnvelope
  rw [if_pos]
  by_contra hno
  push Not at hno
  obtain ⟨h1, h2, -, h4, h5⟩ := hno
  exact h ⟨h1, h2, h4, by simpa using h5⟩

variable {chunks : List (Option (List UInt8))} {projection : ResultProjection Value}

theorem verifyEnvelope_ok_iff (hhex : isSha256Hex expectedDigestHex = true)
    {envelope : ResultEnvelope Value} :
    verifyEnvelope isObject analysisId expectedDigestHex envelope = .ok projection ↔
      Linked isObject analysisId expectedDigestHex envelope ∧
        projection = ⟨analysisId, expectedDigestHex, envelope.recap⟩ := by
  by_cases h : Linked isObject analysisId expectedDigestHex envelope
  · rw [verifyEnvelope_linked hhex h, Except.ok.injEq]
    exact ⟨fun he => ⟨h, he.symm⟩, fun he => he.2.symm⟩
  · rw [verifyEnvelope_unlinked h]
    exact ⟨fun he => (by cases he), fun he => absurd he.1 h⟩

theorem readBody_ok_iff (hhex : isSha256Hex expectedDigestHex = true) :
    readBody fromSlice isObject maxBytes analysisId expectedDigestHex chunks = .ok projection ↔
      fails chunks = false ∧ (arrived chunks).length ≤ maxBytes ∧
      ∃ envelope, fromSlice (arrived chunks) = some envelope ∧
        Linked isObject analysisId expectedDigestHex envelope ∧
        projection = ⟨analysisId, expectedDigestHex, envelope.recap⟩ := by
  unfold readBody
  rw [transfer_result]
  split_ifs with hlong hfails
  · exact ⟨fun he => (by cases he), fun he => absurd he.2.1 (Nat.not_le.mpr hlong)⟩
  · exact ⟨fun he => (by cases he), fun he => absurd (hfails.symm.trans he.1) (by decide)⟩
  · dsimp only
    cases hread : fromSlice (arrived chunks) with
    | none =>
      refine ⟨fun he => (by cases he), fun ⟨_, _, envelope, he, _⟩ => ?_⟩
      cases he
    | some envelope =>
      refine (verifyEnvelope_ok_iff hhex).trans ⟨fun h => ?_, fun ⟨_, _, _, he, h⟩ => ?_⟩
      · exact ⟨Bool.eq_false_iff.mpr hfails, Nat.not_lt.mp hlong, envelope, rfl, h⟩
      · obtain rfl := Option.some.inj he
        exact h

theorem readBody_unavailable_iff :
    readBody fromSlice isObject maxBytes analysisId expectedDigestHex chunks =
      .error .unavailable ↔ fails chunks = true ∧ (arrived chunks).length ≤ maxBytes := by
  unfold readBody
  rw [transfer_result]
  split_ifs with hlong hfails
  · exact ⟨fun he => (by cases he), fun he => absurd he.2 (Nat.not_le.mpr hlong)⟩
  · exact ⟨fun _ => ⟨hfails, Nat.not_lt.mp hlong⟩, fun _ => rfl⟩
  · dsimp only
    refine ⟨fun he => ?_, fun he => absurd he.1 hfails⟩
    cases hread : fromSlice (arrived chunks) with
    | none =>
      rw [hread] at he
      cases he
    | some envelope =>
      rw [hread] at he
      dsimp only at he
      unfold verifyEnvelope at he
      split_ifs at he
      cases he

theorem readRecap_ok_iff {reply : Option KnowledgeResponse} :
    readRecap fromSlice isObject maxBytes analysisId expectedDigestHex reply = .ok projection ↔
      isSha256Hex expectedDigestHex = true ∧ ∃ response, reply = some response ∧
      Acceptable maxBytes response ∧ fails response.chunks = false ∧
      (arrived response.chunks).length ≤ maxBytes ∧
      ∃ envelope, fromSlice (arrived response.chunks) = some envelope ∧
        Linked isObject analysisId expectedDigestHex envelope ∧
        projection = ⟨analysisId, expectedDigestHex, envelope.recap⟩ := by
  by_cases hhex : isSha256Hex expectedDigestHex = true
  · cases reply with
    | none =>
      unfold readRecap
      rw [hhex]
      exact ⟨fun he => (by cases he), fun ⟨_, _, he, _⟩ => (by cases he)⟩
    | some response =>
      by_cases h : Acceptable maxBytes response
      · rw [readRecap_acceptable hhex h, readBody_ok_iff hhex]
        refine ⟨fun hr => ⟨hhex, response, rfl, h, hr⟩, fun ⟨_, _, he, _, hr⟩ => ?_⟩
        obtain rfl := Option.some.inj he
        exact hr
      · rw [readRecap_unacceptable hhex h]
        refine ⟨fun he => ?_, fun ⟨_, _, he, ha, _⟩ => ?_⟩
        · split_ifs at he
        · obtain rfl := Option.some.inj he
          exact absurd ha h
  · unfold readRecap
    rw [Bool.eq_false_iff.mpr hhex]
    exact ⟨fun he => (by cases he), fun he => absurd he.1 Bool.false_ne_true⟩

theorem readRecap_unavailable_iff (hhex : isSha256Hex expectedDigestHex = true)
    {reply : Option KnowledgeResponse} :
    readRecap fromSlice isObject maxBytes analysisId expectedDigestHex reply =
      .error .unavailable ↔ Unreached maxBytes reply := by
  cases reply with
  | none =>
    unfold readRecap
    rw [hhex]
    exact ⟨fun _ => trivial, fun _ => rfl⟩
  | some response =>
    unfold Unreached
    by_cases h : Acceptable maxBytes response
    · have hserver : ¬ (500 ≤ response.status ∧ response.status < 600) := by
        rw [h.status]
        decide
      rw [readRecap_acceptable hhex h, readBody_unavailable_iff]
      exact ⟨fun hr => .inr ⟨h, hr⟩, fun hr => (hr.resolve_left hserver).2⟩
    · rw [readRecap_unacceptable hhex h]
      split_ifs with hserver
      · exact ⟨fun _ => .inl hserver, fun _ => rfl⟩
      · refine ⟨fun he => (by cases he), fun hr => ?_⟩
        exact absurd (hr.resolve_left hserver).1 h

/-- the same bytes in other chunks. -/
structure Rechunked (response response' : KnowledgeResponse) : Prop where
  status : response'.status = response.status
  contentType : response'.contentType = response.contentType
  contentLength : response'.contentLength = response.contentLength
  arrived : arrived response'.chunks = arrived response.chunks
  fails : fails response'.chunks = fails response.chunks

/-- **A recap is returned only when it is the linked one, however it arrives.** -/
theorem readRecap_exact (fromSlice : List UInt8 → Option (ResultEnvelope Value))
    (isObject : Value → Bool) (maxBytes : Nat) (analysisId : Uuid) (expectedDigestHex : String)
    (reply : Option KnowledgeResponse) :
    (∀ projection,
      readRecap fromSlice isObject maxBytes analysisId expectedDigestHex reply = .ok projection ↔
        isSha256Hex expectedDigestHex = true ∧ ∃ response, reply = some response ∧
        Acceptable maxBytes response ∧ fails response.chunks = false ∧
        (arrived response.chunks).length ≤ maxBytes ∧
        ∃ envelope, fromSlice (arrived response.chunks) = some envelope ∧
          Linked isObject analysisId expectedDigestHex envelope ∧
          projection = ⟨analysisId, expectedDigestHex, envelope.recap⟩) ∧
    (∀ response response', reply = some response → Rechunked response response' →
      readRecap fromSlice isObject maxBytes analysisId expectedDigestHex (some response') =
        readRecap fromSlice isObject maxBytes analysisId expectedDigestHex reply) ∧
    (∀ response, reply = some response → initialCapacity maxBytes response ≤ maxBytes ∧
      ∀ rounds, (transfer maxBytes (response.chunks.take rounds)).buffer.length ≤ maxBytes) ∧
    (isSha256Hex expectedDigestHex = true →
      (readRecap fromSlice isObject maxBytes analysisId expectedDigestHex reply =
        .error .unavailable ↔ Unreached maxBytes reply) ∧
      (readRecap fromSlice isObject maxBytes analysisId expectedDigestHex reply =
        .error .invalid ↔ ¬ Unreached maxBytes reply ∧ ∀ projection,
          readRecap fromSlice isObject maxBytes analysisId expectedDigestHex reply ≠
            .ok projection)) := by
  refine ⟨fun projection => readRecap_ok_iff, ?_, ?_, fun hhex =>
    ⟨readRecap_unavailable_iff hhex, ?_⟩⟩
  · intro response response' hreply h
    subst hreply
    unfold readRecap readBody
    dsimp only
    rw [transfer_result, transfer_result, h.status, h.contentType, h.contentLength, h.arrived,
      h.fails]
  · intro response _
    refine ⟨Nat.min_le_right _ _, fun rounds => ?_⟩
    have hempty : ([] : List UInt8).length ≤ maxBytes := Nat.zero_le maxBytes
    exact foldl_buffer hempty
  · have hunreached : readRecap fromSlice isObject maxBytes analysisId expectedDigestHex reply =
        .error .unavailable ↔ Unreached maxBytes reply := readRecap_unavailable_iff hhex
    rw [← hunreached]
    generalize readRecap fromSlice isObject maxBytes analysisId expectedDigestHex reply = answer
    cases answer with
    | ok projection => simp
    | error error => cases error <;> simp

end

/-! ## The reader of the API -/

/-- the envelope of the API is this one, with its digest read from the text. -/
structure Reads {Value : Type} (textOf : Digest → String) (envelope : KnowledgeEnvelope Value)
    (written : ResultEnvelope Value) : Prop where
  analysisId : envelope.analysisId = written.analysisId
  algorithm : envelope.algorithm = written.algorithm
  hex : ∀ digest, envelope.hex = some digest ↔ written.hex = textOf digest
  recap : envelope.recap = written.recap

/-- the checks on one envelope. -/
theorem verifyEnvelope_eq {Value : Type} {isObject : Value → Bool} {textOf : Digest → String}
    {envelope : KnowledgeEnvelope Value} {written : ResultEnvelope Value}
    (h : Reads textOf envelope written) (analysisId : Uuid) {digest : Digest}
    (hhex : isSha256Hex (textOf digest) = true) :
    verifyEnvelope isObject analysisId (textOf digest) written =
      if envelope.analysisId ≠ analysisId ∨ envelope.algorithm ≠ "sha256" ∨
          envelope.hex ≠ some digest ∨ !isObject envelope.recap then .error .invalid
      else .ok ⟨analysisId, textOf digest, envelope.recap⟩ := by
  have hread : envelope.hex = some digest ↔ written.hex = textOf digest := h.hex digest
  unfold verifyEnvelope
  rw [h.analysisId, h.algorithm, h.recap]
  by_cases hdigest : written.hex = textOf digest
  · rw [hdigest, hhex, hread.mpr hdigest]
    simp
  · have hne : envelope.hex ≠ some digest := fun he => hdigest (hread.mp he)
    rw [if_pos (.inr (.inr (.inr (.inl hdigest)))), if_pos (.inr (.inr (.inl hne)))]

/-- **The reader of the API answers as this one does**, for a stored digest that is well formed. -/
theorem verify_eq {V : ViewContracts} (reader : KnowledgeResultReader) {textOf : Digest → String}
    {fromSlice : List UInt8 → Option (ResultEnvelope V.Value)}
    (hreads : ∀ bytes, Option.Rel (Reads textOf) (V.envelope bytes) (fromSlice bytes))
    (analysisId : Uuid) {digest : Digest} (hhex : isSha256Hex (textOf digest) = true)
    (reply : Option KnowledgeResponse) :
    readRecap fromSlice (fun recap => (V.asObject recap).isSome) reader.maxResponseBytes analysisId
        (textOf digest) reply =
      (reader.verify V analysisId digest reply).map fun projection =>
        ⟨projection.analysisId, textOf projection.resultDigest, projection.recap⟩ := by
  unfold readRecap KnowledgeResultReader.verify
  rw [hhex, if_neg (by decide)]
  cases reply with
  | none => rfl
  | some response =>
    dsimp only
    split_ifs with h1 h2 h3 h4
    · rfl
    · rfl
    · rfl
    · rfl
    · unfold readBody transfer
      rw [collect_eq]
      cases (response.chunks.foldl (Transfer.next reader.maxResponseBytes) (.reading [])).result with
      | error error => rfl
      | ok bytes =>
        dsimp only
        have h := hreads bytes
        revert h
        cases V.envelope bytes with
        | none =>
          cases fromSlice bytes with
          | none => intro _; rfl
          | some written => intro h; cases h
        | some envelope =>
          cases fromSlice bytes with
          | none => intro h; cases h
          | some written =>
            intro h
            cases h with
            | some h =>
              dsimp only
              rw [verifyEnvelope_eq h analysisId hhex, Option.not_isSome]
              split_ifs <;> rfl

end ChannelDigests
