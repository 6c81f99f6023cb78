import ChannelDigests.Building
import ChannelDigests.Lib.Ranking
import ChannelDigests.Lib.Digits
import Mathlib.Data.String.Basic

/-!
# The order of a manifest

The builder compares a formatted channel reference as text and reads the message id back from its
text.

* `channelReference`, `messageText`   the two texts of a contract source;
* `textKey`                  the order key as it is written;
* `textKey_le_iff`           it compares as the order key of the model does;
* `build_perm_ok`            a permutation of the sources builds the same manifest;
* `manifest_order`           **manifests do not depend on the order of their sources**.
-/

namespace ChannelDigests
open Lib

/-! ## The key as text -/

/-- an identity as text: 32 lowercase hexadecimal digits in five groups. -/
def uuidText (id : Uuid) : List Char :=
  separated '-' [8, 4, 4, 4] ((digitsOf 16 32 id).map Nat.digitChar)

/-- `telegram-public-channel:<channel>`. -/
def channelReference (channelId : Uuid) : String :=
  String.ofList ("telegram-public-channel:".toList ++ uuidText channelId)

/-- `message_id.to_string()`, as characters. -/
def messageText : Int → List Char
  | .ofNat n => Nat.toDigits 10 n
  | .negSucc n => '-' :: Nat.toDigits 10 (n + 1)

/-- a text without its plus sign. -/
def unsigned : List Char → List Char
  | '+' :: rest => rest
  | text => text

/-- `str::parse::<u128>`: decimal digits after an optional plus sign, without an overflow. -/
def parseU128 (text : List Char) : Option Nat :=
  let number := unsigned text
  if number.isEmpty || !number.all Char.isDigit then none
  else if u128Max < Nat.ofDigitChars 10 number 0 then none
  else some (Nat.ofDigitChars 10 number 0)

/-- `order_key` as it is written. -/
def textKey (s : ContractSource) : Lex (Int × Lex (String × Lex (Nat × Nat))) :=
  toLex (s.publishedAt, toLex (channelReference s.channelRef,
    toLex ((parseU128 (messageText s.messageId)).getD u128Max, s.revision)))

theorem digitChar_lt_iff : ∀ x < 16, ∀ y < 16, Nat.digitChar x < Nat.digitChar y ↔ x < y := by
  decide

theorem digitChar_eq_iff : ∀ x < 16, ∀ y < 16, Nat.digitChar x = Nat.digitChar y ↔ x = y := by
  decide

/-- **References are compared as the identities are.** -/
theorem channelReference_lt_iff {a b : Uuid} (ha : a ≤ u128Max) (hb : b ≤ u128Max) :
    channelReference a < channelReference b ↔ a < b := by
  have hcapacity : ∀ x ≤ u128Max, x < capacity 16 32 := by
    intro x hx
    exact Nat.lt_of_le_of_lt hx (by decide)
  have hdigit : ∀ x ≤ u128Max, ∀ d ∈ digitsOf 16 32 x, d < 16 := fun x hx =>
    digits_lt_base (by decide) (hcapacity x hx)
  unfold channelReference uuidText
  generalize "telegram-public-channel:".toList = scheme
  rw [String.lt_iff_toList_lt, String.toList_ofList, String.toList_ofList,
    append_lt_append_iff rfl, separated_lt_iff (by simp [length_digits]),
    map_lt_map_iff (fun x hx y hy => digitChar_lt_iff x (hdigit a ha x hx) y (hdigit b hb y hy))
      fun x hx y hy => digitChar_eq_iff x (hdigit a ha x hx) y (hdigit b hb y hy),
    digits_lt_iff (by decide) (hcapacity a ha) (hcapacity b hb)]
  simp

theorem channelReference_inj {a b : Uuid} (ha : a ≤ u128Max) (hb : b ≤ u128Max) :
    channelReference a = channelReference b ↔ a = b := by
  refine ⟨fun h => ?_, congrArg _⟩
  rcases Nat.lt_trichotomy a b with hlt | heq | hlt
  · exact absurd h ((channelReference_lt_iff ha hb).mpr hlt).ne
  · exact heq
  · exact absurd h.symm ((channelReference_lt_iff hb ha).mpr hlt).ne

/-- a number that is not negative is read back; a negative one is not. -/
theorem parseU128_messageText {messageId : Int} (h : messageId.toNat ≤ u128Max) :
    (parseU128 (messageText messageId)).getD u128Max =
      if 0 ≤ messageId then messageId.toNat else u128Max := by
  cases messageId with
  | ofNat n =>
    have hdigit : ∀ c ∈ Nat.toDigits 10 n, c.isDigit = true := fun c hc =>
      Nat.isDigit_of_mem_toDigits (by decide) (by decide) hc
    have hplus : unsigned (Nat.toDigits 10 n) = Nat.toDigits 10 n := by
      unfold unsigned
      split
      · next rest he =>
        have hsign := hdigit '+' (he ▸ List.mem_cons_self)
        exact absurd hsign (by decide)
      · rfl
    unfold parseU128 messageText
    rw [hplus]
    dsimp only
    rw [if_neg, if_neg]
    · refine Eq.trans ?_ (if_pos (Int.natCast_nonneg n)).symm
      exact Nat.ofDigitChars_ten_toDigits
    · rw [Nat.ofDigitChars_ten_toDigits, Nat.not_lt]
      exact h
    · rw [Bool.or_eq_true, List.isEmpty_iff, Bool.not_eq_true', not_or]
      refine ⟨Nat.toDigits_ne_nil, ?_⟩
      rw [Bool.not_eq_false, List.all_eq_true]
      exact hdigit
  | negSucc n =>
    rw [if_neg (by exact Int.not_le.mpr (Int.negSucc_lt_zero n))]
    rfl

/-- **The order key as it is written compares as the order key of the model does.** -/
theorem textKey_le_iff {a b : ContractSource} (ha : a.channelRef ≤ u128Max)
    (hb : b.channelRef ≤ u128Max) (ham : a.messageId.toNat ≤ u128Max)
    (hbm : b.messageId.toNat ≤ u128Max) : textKey a ≤ textKey b ↔ orderKey a ≤ orderKey b := by
  unfold textKey orderKey
  simp only [Prod.Lex.toLex_le_toLex]
  rw [channelReference_lt_iff ha hb, channelReference_inj ha hb, parseU128_messageText ham,
    parseU128_messageText hbm]

/-! ## Permutations -/

/-- what the sources of a text are ordered by. -/
def ContractSource.place (s : ContractSource) : Lex (Int × Lex (Nat × Lex (Int × Nat))) :=
  toLex (s.publishedAt, toLex (s.channelRef, toLex (s.messageId, s.revision)))

theorem orderKey_lt_iff {a b : ContractSource} (ha : 0 ≤ a.messageId) (hb : 0 ≤ b.messageId) :
    orderKey a < orderKey b ↔ a.place < b.place := by
  have hlt : a.messageId.toNat < b.messageId.toNat ↔ a.messageId < b.messageId := by omega
  have heq : a.messageId.toNat = b.messageId.toNat ↔ a.messageId = b.messageId := by omega
  unfold orderKey ContractSource.place
  simp only [Prod.Lex.toLex_lt_toLex]
  rw [if_pos ha, if_pos hb, hlt, heq]

section
variable {C : Contracts} {sources sources' : List ManifestSource}
  {selected selected' : List ContractSource}

/-- the contract form of a source is a function of it. -/
theorem mapM_eq_filterMap (h : sources.mapM (contractSource C) = .ok selected) :
    selected = sources.filterMap fun s => (contractSource C s).toOption := by
  have hall := mapM_contractSource h
  clear h
  induction hall with
  | nil => rfl
  | cons hs _ ih => rw [List.filterMap_cons, hs, ih]; rfl

theorem mapM_perm (hp : List.Perm sources sources')
    (h : sources.mapM (contractSource C) = .ok selected) :
    ∃ selected', sources'.mapM (contractSource C) = .ok selected' ∧ List.Perm selected selected' := by
  have hok : ∀ s ∈ sources', ∃ t, contractSource C s = .ok t := fun s hs => by
    obtain ⟨t, -, ht⟩ := mem_left (mapM_contractSource h) (hp.mem_iff.mpr hs)
    exact ⟨t, ht⟩
  obtain ⟨selected', h'⟩ := mapM_contractSource_isOk hok
  refine ⟨selected', h', ?_⟩
  rw [mapM_eq_filterMap h, mapM_eq_filterMap h']
  exact hp.filterMap _

/-- the contract form keeps the place of a source. -/
theorem contractSource_place {source : ManifestSource} {s : ContractSource}
    (h : contractSource C source = .ok s) :
    s.channelRef = source.channelId ∧ s.messageId = source.messageId ∧
      s.revision = source.revisionIndex := by
  unfold contractSource at h
  split_ifs at h
  cases h
  exact ⟨rfl, rfl, rfl⟩

/-- what tells the sources of a selection apart. -/
def ManifestSource.identity (s : ManifestSource) : Uuid × Int × Nat :=
  (s.channelId, s.messageId, s.revisionIndex)

/-- no two sources have the same order key. -/
theorem orderKeys_unique (hid : ∀ s ∈ sources, 0 ≤ s.messageId)
    (hnodup : (sources.map ManifestSource.identity).Nodup)
    (h : sources.mapM (contractSource C) = .ok selected) : KeyUnique orderKey selected := by
  have hall := mapM_contractSource h
  have hmap : selected.map (fun s => (s.channelRef, s.messageId, s.revision)) =
      sources.map ManifestSource.identity := by
    clear h hid hnodup
    induction hall with
    | nil => rfl
    | cons hs _ ih =>
      obtain ⟨e1, e2, e3⟩ := contractSource_place hs
      rw [List.map_cons, List.map_cons, ih, e1, e2, e3, ManifestSource.identity]
  have hpos : ∀ s ∈ selected, 0 ≤ s.messageId := by
    intro s hs
    obtain ⟨source, hmem, hok⟩ := mem_right hall hs
    rw [(contractSource_place hok).2.1]
    exact hid source hmem
  rw [← hmap] at hnodup
  refine List.Nodup.map_on (fun a ha b hb he => ?_) (List.Nodup.of_map _ hnodup)
  unfold orderKey at he
  rw [if_pos (hpos a ha), if_pos (hpos b hb)] at he
  simp only [toLex_inj, Prod.mk.injEq] at he
  obtain ⟨-, he1, he2, he3⟩ := he
  have hid : a.messageId = b.messageId := by
    have ha := hpos a ha
    have hb := hpos b hb
    omega
  exact List.inj_on_of_nodup_map hnodup ha hb (by rw [he1, hid, he3])

theorem messagesOf_perm (hp : List.Perm sources sources') :
    messagesOf sources = messagesOf sources' := by
  have hunique : KeyUnique toLex ((sources.map fun s => (s.channelId, s.messageId)).dedup) :=
    (List.nodup_dedup _).map toLex.injective
  exact sorted_congr hunique (hp.map _).dedup

theorem channelCountOf_perm (hp : List.Perm sources sources') :
    channelCountOf sources = channelCountOf sources' :=
  ((hp.map _).dedup).length_eq

/-- identities of 128 bits and message ids of a signed 64-bit column. -/
def ContractSource.fits (s : ContractSource) : Prop :=
  s.channelRef ≤ u128Max ∧ s.messageId.toNat ≤ u128Max

/-- **Sorting by the key as it is written gives the same list.** -/
theorem sorted_textKey (hfits : ∀ s ∈ selected, s.fits) (h : KeyUnique orderKey selected) :
    sorted textKey selected = sorted orderKey selected := by
  have hle : ∀ a ∈ selected, ∀ b ∈ selected, textKey a ≤ textKey b ↔ orderKey a ≤ orderKey b :=
    fun a ha b hb => textKey_le_iff (hfits a ha).1 (hfits b hb).1 (hfits a ha).2 (hfits b hb).2
  have hunique : KeyUnique textKey selected := by
    refine List.Nodup.map_on (fun a ha b hb he => ?_) (List.Nodup.of_map _ h)
    have hab := (hle a ha b hb).mp he.le
    have hba := (hle b hb a ha).mp he.ge
    exact List.inj_on_of_nodup_map h ha hb (le_antisymm hab hba)
  have hperm : List.Perm (sorted textKey selected) (sorted orderKey selected) :=
    (sorted_perm _ _).trans (sorted_perm _ _).symm
  have hrising : (sorted textKey selected).Pairwise fun a b => orderKey a < orderKey b := by
    refine (sorted_lt hunique).imp_of_mem fun {a b} ha hb hlt => ?_
    have ha := (sorted_perm _ _).mem_iff.mp ha
    have hb := (sorted_perm _ _).mem_iff.mp hb
    exact lt_of_not_ge fun hge => hlt.not_ge ((hle b hb a ha).mpr hge)
  exact hperm.eq_of_pairwise (fun a b _ _ hab hba => absurd hab hba.not_gt) hrising (sorted_lt h)

/-! ## The builder -/

/-- the sources of a text: the selected ones in their contract form, each once, strictly
ascending; also by the texts of their references. -/
structure Ordered (C : Contracts) (sources : List ManifestSource) (contract : ContractManifest) :
    Prop where
  ascending : contract.sources.Pairwise fun a b => a.place < b.place
  written : (∀ s ∈ contract.sources, s.fits) → contract.sources.Pairwise fun a b =>
    textKey a < textKey b
  same : ∃ selected, List.Forall₂ (fun source s => contractSource C source = .ok s) sources selected ∧
    List.Perm contract.sources selected

section
variable {manifestId ownerId runId : Uuid} {windowStart windowEnd : Instant}
  {manifest : CanonicalManifest}

/-- a permutation of the sources builds the same manifest. -/
theorem build_perm (hp : List.Perm sources sources') (hid : ∀ s ∈ sources, 0 ≤ s.messageId)
    (hnodup : (sources.map ManifestSource.identity).Nodup)
    (h : build C manifestId ownerId runId windowStart windowEnd sources = .ok manifest) :
    build C manifestId ownerId runId windowStart windowEnd sources' = .ok manifest := by
  obtain ⟨selected, hsel, -⟩ := (build_ok h).text
  obtain ⟨selected', hsel', hps⟩ := mapM_perm hp hsel
  have hsorted : selected'.insertionSort (fun a b => orderKey a ≤ orderKey b) =
      selected.insertionSort fun a b => orderKey a ≤ orderKey b :=
    (sorted_congr (orderKeys_unique hid hnodup hsel) hps).symm
  rw [← h]
  unfold build
  rw [hp.length_eq, channelCountOf_perm hp, messagesOf_perm hp, hsel, hsel']
  simp only [Bind.bind, Except.bind, hsorted]

/-- the manifest that is encoded is in order. -/
theorem build_ordered (hid : ∀ s ∈ sources, 0 ≤ s.messageId)
    (hnodup : (sources.map ManifestSource.identity).Nodup)
    (h : build C manifestId ownerId runId windowStart windowEnd sources = .ok manifest) :
    ∃ contract, C.canonicalText contract = some manifest.text ∧ Ordered C sources contract := by
  obtain ⟨selected, hsel, htext⟩ := (build_ok h).text
  have hall := mapM_contractSource hsel
  have hunique := orderKeys_unique hid hnodup hsel
  have hperm : List.Perm (sorted orderKey selected) selected := sorted_perm _ _
  refine ⟨_, htext, ?_, fun hfits => ?_, selected, hall, hperm⟩
  · refine (sorted_lt hunique).imp_of_mem fun {a b} ha hb hlt => ?_
    obtain ⟨s, hs, hsa⟩ := mem_right hall (hperm.mem_iff.mp ha)
    obtain ⟨t, ht, htb⟩ := mem_right hall (hperm.mem_iff.mp hb)
    have ha : 0 ≤ a.messageId := (contractSource_place hsa).2.1 ▸ hid s hs
    have hb : 0 ≤ b.messageId := (contractSource_place htb).2.1 ▸ hid t ht
    exact (orderKey_lt_iff ha hb).mp hlt
  · refine (sorted_lt hunique).imp_of_mem fun {a b} ha hb hlt => ?_
    refine lt_of_not_ge fun hge => hlt.not_ge ?_
    exact (textKey_le_iff (hfits b hb).1 (hfits a ha).1 (hfits b hb).2 (hfits a ha).2).mp hge

/-- **Manifests do not depend on the order of their sources**: the builder fails on both orders,
or builds one manifest on both, whose text has the sources in strictly ascending order, none lost,
repeated or altered. -/
theorem manifest_order (hp : List.Perm sources sources') (hid : ∀ s ∈ sources, 0 ≤ s.messageId)
    (hnodup : (sources.map ManifestSource.identity).Nodup) :
    ((∃ x, build C manifestId ownerId runId windowStart windowEnd sources = .error x) ∧
      ∃ x, build C manifestId ownerId runId windowStart windowEnd sources' = .error x) ∨
    ∃ manifest, build C manifestId ownerId runId windowStart windowEnd sources = .ok manifest ∧
      build C manifestId ownerId runId windowStart windowEnd sources' = .ok manifest ∧
      ∃ contract, C.canonicalText contract = some manifest.text ∧ Ordered C sources contract := by
  have hid' : ∀ s ∈ sources', 0 ≤ s.messageId := fun s hs => hid s (hp.mem_iff.mpr hs)
  have hnodup' : (sources'.map ManifestSource.identity).Nodup := (hp.map _).nodup_iff.mp hnodup
  cases h : build C manifestId ownerId runId windowStart windowEnd sources with
  | ok manifest =>
    exact .inr ⟨manifest, rfl, build_perm hp hid hnodup h, build_ordered hid hnodup h⟩
  | error x =>
    cases h' : build C manifestId ownerId runId windowStart windowEnd sources' with
    | ok manifest =>
      rw [build_perm hp.symm hid' hnodup' h'] at h
      cases h
    | error y => exact .inl ⟨⟨x, rfl⟩, y, rfl⟩

end

end

/-! ## Two posts of one second -/

namespace Sample

/-- a post of the channel under another message id. -/
def sourceOf (messageId : Int) : ManifestSource :=
  { revisionId := 70 + messageId.toNat
    channelId := 60
    channelUsername := "news"
    channelDisplayName := none
    messageId
    contentSha256 := accepting.textDigest "text"
    publishedAt := 0
    canonicalLink := publicLink "news" messageId
    body := "text"
    revisionIndex := 1 }

end Sample

/-- the ninth message stands before the tenth, although its text does not, whichever comes
first. -/
theorem twoPosts_ordered :
    build Sample.accepting 9 5 6 0 1000000000 [Sample.sourceOf 10, Sample.sourceOf 9] =
      build Sample.accepting 9 5 6 0 1000000000 [Sample.sourceOf 9, Sample.sourceOf 10] ∧
    ∃ manifest, build Sample.accepting 9 5 6 0 1000000000
      [Sample.sourceOf 10, Sample.sourceOf 9] = .ok manifest ∧
      manifest.messages = [(60, 9), (60, 10)] := by
  have hp : List.Perm [Sample.sourceOf 10, Sample.sourceOf 9]
      [Sample.sourceOf 9, Sample.sourceOf 10] := .swap _ _ _
  have h := @manifest_order Sample.accepting _ _ 9 5 6 0 1000000000 hp (by decide) (by decide)
  rcases h with ⟨⟨x, hx⟩, -⟩ | ⟨manifest, h1, h2, -⟩
  · cases hx
  · exact ⟨h1.trans h2.symm, manifest, h1, (build_ok h1).messages_eq.trans (by decide)⟩

end ChannelDigests
