import Attached.Library.SerdeLemmas
import Attached.Protocol.AccountLemmas
import Attached.Protocol.Bundle

/-!
This module contains the correctness of the account bundle codec: each bundle has exactly one text,
apart from owner bundles whose consumer identity is the one that the historical format implies.
-/

namespace Attached

open AccountBundleWire Serde

variable {crates : AccountCrates}

theorem asUnsigned_byte (n : UInt8)
    : asUnsigned 256 (.number (Bytes.numeral 10 n.toNat)) = some n.toNat :=
  asUnsigned_numeral n.toNat_lt

theorem ofJson_scoped_members (wire : ScopedWire)
    : ofJson (.object wire.members) = some (.scoped wire) := by
  rcases wire with ⟨origin, id, scope, token, key, identity, secret⟩
  cases identity with
  | none =>
    cases secret with
    | none =>
      simp [ofJson, ScopedWire.members, textMember, numberMember, optionalMember, required, member,
        optionalString, asString, ScopedWire.ofMembers, onlyFields, asUnsigned_byte]
    | some secret =>
      simp [ofJson, ScopedWire.members, textMember, numberMember, optionalMember, required, member,
        optionalString, asString, asOptionalString, ScopedWire.ofMembers, onlyFields, asUnsigned_byte]
  | some identity =>
    cases secret with
    | none =>
      simp [ofJson, ScopedWire.members, textMember, numberMember, optionalMember, required, member,
        optionalString, asString, asOptionalString, ScopedWire.ofMembers, onlyFields, asUnsigned_byte]
    | some secret =>
      simp [ofJson, ScopedWire.members, textMember, numberMember, optionalMember, required, member,
        optionalString, asString, asOptionalString, ScopedWire.ofMembers, onlyFields, asUnsigned_byte]

theorem ofJson_owner_members (wire : OwnerWire)
    : ofJson (.object wire.members) = some (.owner wire) := by
  rcases wire with ⟨origin, id, publish, download, key, secret⟩
  rcases secret with _ | _ | secret
  . simp [ofJson, OwnerWire.members, textMember, required, member, asString, OwnerWire.ofMembers,
      onlyFields]
  . simp [ofJson, OwnerWire.members, textMember, required, member, asString, OwnerWire.ofMembers,
      onlyFields, asOptionalString]
  . simp [ofJson, OwnerWire.members, textMember, required, member, asString, OwnerWire.ofMembers,
      onlyFields, asOptionalString]

theorem ofJson_members (wire : AccountBundleWire)
    : ofJson (.object wire.members) = some wire := by
  cases wire with
  | «scoped» wire => apply ofJson_scoped_members
  | owner wire => apply ofJson_owner_members

theorem fromSlice_toVec {wire : AccountBundleWire} (h : ∀ m ∈ wire.members, Readable m)
    : fromSlice wire.toVec = some wire := by
  have hreads : Json.Reads Json.maxDepth (.object wire.members) := by
    apply Json.reads_object
    . decide
    . exact h
  unfold fromSlice toVec
  rw [Json.parse_print hreads]
  exact ofJson_members wire

theorem readable_optionalMember {name : String} {text : Option (List UInt8)}
    (hname : (Bytes.ofString name).all Json.isPlain = true)
    (htext : ∀ t ∈ text, t.all Json.isPlain = true)
    : ∀ m ∈ optionalMember name text, Readable m := by
  intro m hm
  cases text with
  | none => simp [optionalMember] at hm
  | some text =>
    simp only [optionalMember, Option.map_some, Option.toList_some, List.mem_singleton] at hm
    subst hm
    apply readable_textMember hname
    apply htext
    simp

theorem isPlain_fieldText
    : ∀ text ∈ ["bundle_type", "service_origin", "account_id", "api_key_scope", "api_token",
        "publish_api_token", "download_api_token", "account_root_key", "authorized_consumer_identity",
        "consumer_identity_secret", "scoped", "owner"],
      (Bytes.ofString text).all Json.isPlain = true := by
  decide +kernel

theorem length_fieldName
    : ∀ field ∈ [("service_origin", 16), ("account_id", 12), ("api_token", 11),
        ("publish_api_token", 19), ("download_api_token", 20), ("account_root_key", 18),
        ("authorized_consumer_identity", 30), ("consumer_identity_secret", 26)],
      (Json.printString (Bytes.ofString field.1)).length = field.2 := by
  decide +kernel

theorem ScopedAccountBundle.readable_members (bundle : ScopedAccountBundle crates)
    : ∀ m ∈ bundle.wire.members, Readable m := by
  intro m hm
  simp only [ScopedWire.members, ScopedAccountBundle.wire, List.mem_append, List.mem_cons,
    List.not_mem_nil, or_false] at hm
  rcases hm with ((rfl | rfl | rfl | rfl | rfl | rfl) | hm) | hm
  . apply readable_textMember (isPlain_fieldText _ (by simp)) (isPlain_fieldText _ (by simp))
  . apply readable_textMember (isPlain_fieldText _ (by simp)) bundle.serviceOrigin.all_isPlain_text
  . apply readable_textMember (isPlain_fieldText _ (by simp)) bundle.accountId.all_isPlain_hyphenated
  . constructor
    . exact isPlain_fieldText _ (by simp)
    . apply Json.reads_number
      apply Json.isNatural_numeral
  . apply readable_textMember (isPlain_fieldText _ (by simp)) (all_isPlain_encode _)
  . apply readable_textMember (isPlain_fieldText _ (by simp)) (all_isPlain_encode _)
  . apply readable_optionalMember (isPlain_fieldText _ (by simp)) _ m hm
    intro t ht
    rcases Option.map_eq_some_iff.mp ht with ⟨_, _, rfl⟩
    apply all_isPlain_encode
  . apply readable_optionalMember (isPlain_fieldText _ (by simp)) _ m hm
    intro t ht
    rcases Option.map_eq_some_iff.mp ht with ⟨_, _, rfl⟩
    apply all_isPlain_encode

namespace OwnerAccountBundle

def legacyWire (bundle : OwnerAccountBundle crates) : OwnerWire :=
  { bundle.wire with consumerIdentitySecret := none }

theorem readable_legacy_members (bundle : OwnerAccountBundle crates)
    : ∀ m ∈ bundle.legacyWire.members, Readable m := by
  intro m hm
  simp only [OwnerWire.members, legacyWire, wire, List.append_nil, List.mem_cons,
    List.not_mem_nil, or_false] at hm
  rcases hm with rfl | rfl | rfl | rfl | rfl | rfl
  . apply readable_textMember (isPlain_fieldText _ (by simp)) (isPlain_fieldText _ (by simp))
  . apply readable_textMember (isPlain_fieldText _ (by simp)) bundle.serviceOrigin.all_isPlain_text
  . apply readable_textMember (isPlain_fieldText _ (by simp)) bundle.accountId.all_isPlain_hyphenated
  . apply readable_textMember (isPlain_fieldText _ (by simp)) (all_isPlain_encode _)
  . apply readable_textMember (isPlain_fieldText _ (by simp)) (all_isPlain_encode _)
  . apply readable_textMember (isPlain_fieldText _ (by simp)) (all_isPlain_encode _)

theorem members_wire (bundle : OwnerAccountBundle crates)
    : bundle.wire.members
        =
      bundle.legacyWire.members
        ++ [textMember "consumer_identity_secret"
          (Base64.encode bundle.consumerIdentitySecret.bytes.toList)] := by
  rfl

theorem readable_members (bundle : OwnerAccountBundle crates)
    : ∀ m ∈ bundle.wire.members, Readable m := by
  intro m hm
  rw [members_wire, List.mem_append, List.mem_singleton] at hm
  cases hm with
  | inl hm => apply readable_legacy_members bundle m hm
  | inr hm =>
    subst hm
    apply readable_textMember (isPlain_fieldText _ (by simp)) (all_isPlain_encode _)

end OwnerAccountBundle

namespace AccountBundle

theorem fromSlice_wire (bundle : AccountBundle crates)
    : fromSlice bundle.wire.toVec = some bundle.wire := by
  apply fromSlice_toVec
  cases bundle with
  | «scoped» bundle => apply bundle.readable_members
  | owner bundle => apply bundle.readable_members

end AccountBundle

theorem length_toVec_le (wire : AccountBundleWire)
    : wire.toVec.length ≤ (wire.members.map Json.memberLength).sum + 2 :=
  length_print_object_le wire.members

theorem memberLength_secret {name : String} {n : Nat}
    (hname : (Json.printString (Bytes.ofString name)).length = n) (v : Vector UInt8 32)
    : Json.memberLength (textMember name (Base64.encode v.toList)) ≤ n + 47 := by
  have hlength := length_encode_secret v
  exact memberLength_textMember hname (all_isPlain_encode _) (by rw [hlength]; decide)

theorem OwnerAccountBundle.sum_memberLength_le (bundle : OwnerAccountBundle crates)
    : (bundle.wire.members.map Json.memberLength).sum + 2 ≤ maxBundleBytes := by
  have htype : Json.memberLength (textMember "bundle_type" (Bytes.ofString "owner")) = 22 := by
    decide +kernel
  have horigin := memberLength_textMember
    (show (Json.printString (Bytes.ofString "service_origin")).length = 16 from
      length_fieldName ("service_origin", 16) (by simp))
    bundle.serviceOrigin.all_isPlain_text bundle.serviceOrigin.length_text_le
  have hid := memberLength_textMember
    (show (Json.printString (Bytes.ofString "account_id")).length = 12 from
      length_fieldName ("account_id", 12) (by simp))
    bundle.accountId.all_isPlain_hyphenated (Nat.le_of_eq bundle.accountId.length_hyphenated)
  have hpublish := memberLength_secret
    (show (Json.printString (Bytes.ofString "publish_api_token")).length = 19 from
      length_fieldName ("publish_api_token", 19) (by simp))
    bundle.publishApiToken.bytes
  have hdownload := memberLength_secret
    (show (Json.printString (Bytes.ofString "download_api_token")).length = 20 from
      length_fieldName ("download_api_token", 20) (by simp))
    bundle.downloadApiToken.bytes
  have hkey := memberLength_secret
    (show (Json.printString (Bytes.ofString "account_root_key")).length = 18 from
      length_fieldName ("account_root_key", 18) (by simp))
    bundle.accountRootKey.bytes
  have hsecret := memberLength_secret
    (show (Json.printString (Bytes.ofString "consumer_identity_secret")).length = 26 from
      length_fieldName ("consumer_identity_secret", 26) (by simp))
    bundle.consumerIdentitySecret.bytes
  simp only [OwnerWire.members, OwnerAccountBundle.wire, ApiToken.encode, List.map_append,
    List.map_cons, List.map_nil, List.sum_append, List.sum_cons, List.sum_nil, maxBundleBytes]
  omega

theorem OwnerAccountBundle.length_toVec_le (bundle : OwnerAccountBundle crates)
    : (AccountBundleWire.owner bundle.wire).toVec.length ≤ maxBundleBytes := by
  apply Nat.le_trans (Attached.length_toVec_le _)
  apply bundle.sum_memberLength_le

theorem OwnerAccountBundle.length_legacy_toVec_le (bundle : OwnerAccountBundle crates)
    : (AccountBundleWire.owner bundle.legacyWire).toVec.length ≤ maxBundleBytes := by
  apply Nat.le_trans (Attached.length_toVec_le _)
  have := bundle.sum_memberLength_le
  rw [bundle.members_wire, List.map_append, List.sum_append] at this
  simp only [AccountBundleWire.members]
  omega

theorem sum_memberLength_optional {name : String} {n : Nat}
    (hname : (Json.printString (Bytes.ofString name)).length = n) (v : Option (Vector UInt8 32))
    : ((optionalMember name (v.map fun v => Base64.encode v.toList)).map Json.memberLength).sum
        ≤
      n + 47 := by
  cases v with
  | none => simp [optionalMember]
  | some v =>
    have := memberLength_secret hname v
    simp only [optionalMember, Option.map_some, Option.toList_some, List.map_cons, List.map_nil,
      List.sum_cons, List.sum_nil]
    omega

theorem ScopedAccountBundle.length_toVec_le (bundle : ScopedAccountBundle crates)
    : (AccountBundleWire.scoped bundle.wire).toVec.length ≤ maxBundleBytes := by
  have htotal := Attached.length_toVec_le (.scoped bundle.wire)
  have htype : Json.memberLength (textMember "bundle_type" (Bytes.ofString "scoped")) = 23 := by
    decide +kernel
  have horigin := memberLength_textMember
    (show (Json.printString (Bytes.ofString "service_origin")).length = 16 from
      length_fieldName ("service_origin", 16) (by simp))
    bundle.serviceOrigin.all_isPlain_text bundle.serviceOrigin.length_text_le
  have hid := memberLength_textMember
    (show (Json.printString (Bytes.ofString "account_id")).length = 12 from
      length_fieldName ("account_id", 12) (by simp))
    bundle.accountId.all_isPlain_hyphenated (Nat.le_of_eq bundle.accountId.length_hyphenated)
  have hscope : Json.memberLength (numberMember "api_key_scope" bundle.apiKeyScope.toU8.toNat)
      = 18 := by
    cases bundle.apiKeyScope with
    | publish => decide +kernel
    | download => decide +kernel
  have htoken := memberLength_secret
    (show (Json.printString (Bytes.ofString "api_token")).length = 11 from
      length_fieldName ("api_token", 11) (by simp))
    bundle.apiToken.bytes
  have hkey := memberLength_secret
    (show (Json.printString (Bytes.ofString "account_root_key")).length = 18 from
      length_fieldName ("account_root_key", 18) (by simp))
    bundle.accountRootKey.bytes
  have hidentity := sum_memberLength_optional
    (show (Json.printString (Bytes.ofString "authorized_consumer_identity")).length = 30 from
      length_fieldName ("authorized_consumer_identity", 30) (by simp))
    (bundle.authorizedConsumerIdentity.map AuthorizedConsumerIdentity.bytes)
  have hsecret := sum_memberLength_optional
    (show (Json.printString (Bytes.ofString "consumer_identity_secret")).length = 26 from
      length_fieldName ("consumer_identity_secret", 26) (by simp))
    (bundle.consumerIdentitySecret.map ConsumerIdentitySecret.bytes)
  rw [Option.map_map] at hidentity hsecret
  simp only [AccountBundleWire.members, ScopedWire.members, ScopedAccountBundle.wire,
    ApiToken.encode, List.map_append, List.map_cons, List.map_nil, List.sum_append, List.sum_cons,
    List.sum_nil] at htotal
  simp only [maxBundleBytes, ScopedAccountBundle.wire, ApiToken.encode]
  simp only [Function.comp_def] at hidentity hsecret
  omega

def ScopedAccountBundle.Valid (bundle : ScopedAccountBundle crates) : Prop :=
  bundle.accountId.isUuidV7 = true
    ∧ match bundle.apiKeyScope with
      | .publish =>
        bundle.authorizedConsumerIdentity.isSome = true ∧ bundle.consumerIdentitySecret = none
      | .download =>
        bundle.authorizedConsumerIdentity = none ∧ bundle.consumerIdentitySecret.isSome = true

def OwnerAccountBundle.Valid (bundle : OwnerAccountBundle crates) : Prop :=
  bundle.accountId.isUuidV7 = true
    ∧ bundle.publishApiToken.serviceHash crates ≠ bundle.downloadApiToken.serviceHash crates

namespace ScopedAccountBundle

theorem valid_of_fromParts {origin : ServiceOrigin crates} {id : AccountId} {token : ApiToken}
    {key : AccountRootKey} {identity : Option AuthorizedConsumerIdentity}
    {bundle : ScopedAccountBundle crates}
    (h : fromParts origin id .publish token key identity = .ok bundle) : bundle.Valid := by
  simp only [fromParts, Except.bind_eq_ok_iff, Except.ensure_eq_ok_iff, Except.pure_eq_ok_iff,
    Bool.not_eq_true', Bool.or_eq_false_iff, Bool.not_eq_false', bne_eq_false_iff_eq] at h
  rcases h with ⟨_, ⟨hid, hidentity⟩, rfl⟩
  exact ⟨hid, hidentity.symm, rfl⟩

theorem valid_of_fromDownloadParts {origin : ServiceOrigin crates} {id : AccountId}
    {token : ApiToken} {key : AccountRootKey} {secret : ConsumerIdentitySecret}
    {bundle : ScopedAccountBundle crates}
    (h : fromDownloadParts origin id token key secret = .ok bundle) : bundle.Valid := by
  simp only [fromDownloadParts, Except.bind_eq_ok_iff, Except.ensure_eq_ok_iff,
    Except.pure_eq_ok_iff, Bool.not_not] at h
  rcases h with ⟨_, hid, rfl⟩
  exact ⟨hid, rfl, rfl⟩

theorem valid_of_ofWire {wire : ScopedWire} {bundle : ScopedAccountBundle crates}
    (h : ofWire crates wire = .ok bundle) : bundle.Valid := by
  simp only [ofWire, Except.bind_eq_ok_iff] at h
  rcases h with ⟨origin, _, id, _, token, _, key, _, scope, _, h⟩
  cases scope with
  | publish =>
    simp only [Except.bind_eq_ok_iff] at h
    rcases h with ⟨identity, _, h⟩
    exact valid_of_fromParts h
  | download =>
    simp only [Except.bind_eq_ok_iff] at h
    rcases h with ⟨text, _, secret, _, h⟩
    exact valid_of_fromDownloadParts h

theorem ofWire_wire {bundle : ScopedAccountBundle crates} (h : bundle.Valid)
    : ofWire crates bundle.wire = .ok bundle := by
  rcases bundle with ⟨origin, id, scope, token, key, identity, secret⟩
  rcases h with ⟨hid, h⟩
  simp only [ofWire, wire, Except.bind_eq_ok_iff, Except.mapError_eq_ok_iff]
  refine ⟨origin, ServiceOrigin.parse_eq_ok_iff.mpr rfl, id,
    AccountId.parse_eq_ok_iff.mpr ⟨rfl, hid⟩, token.bytes, decodeBundleSecret_eq_ok_iff.mpr rfl,
    key.bytes, decodeBundleSecret_eq_ok_iff.mpr rfl, scope, ?_, ?_⟩
  . cases scope with
    | publish => rfl
    | download => rfl
  . simp only at hid h
    cases scope with
    | publish =>
      rcases Option.isSome_iff_exists.mp h.1 with ⟨identity, rfl⟩
      rw [h.2]
      simp only [Except.bind_eq_ok_iff, Option.map_some]
      refine ⟨some identity.bytes, ?_, ?_⟩
      . rw [Except.mapM_some_eq_ok_iff]
        exact ⟨identity.bytes, decodeBundleSecret_eq_ok_iff.mpr rfl, rfl⟩
      . simp only [fromParts, hid]
        rfl
    | download =>
      rcases Option.isSome_iff_exists.mp h.2 with ⟨secret, rfl⟩
      rw [h.1]
      simp only [Except.bind_eq_ok_iff, Option.map_some]
      refine ⟨_, rfl, secret.bytes, decodeBundleSecret_eq_ok_iff.mpr rfl, ?_⟩
      simp only [fromDownloadParts, hid]
      rfl

end ScopedAccountBundle

namespace OwnerAccountBundle

def HasLegacySecret (bundle : OwnerAccountBundle crates) : Prop :=
  bundle.consumerIdentitySecret.bytes = legacySecret crates bundle.accountRootKey.bytes

theorem fromParts_eq_ok_iff {origin : ServiceOrigin crates} {id : AccountId}
    {publish download : ApiToken} {key : AccountRootKey} {secret : ConsumerIdentitySecret}
    {bundle : OwnerAccountBundle crates}
    : fromParts origin id publish download key secret = .ok bundle
        ↔
      bundle.Valid ∧ bundle = ⟨origin, id, publish, download, key, secret⟩ := by
  simp only [fromParts, Except.bind_eq_ok_iff, Except.ensure_eq_ok_iff, Except.pure_eq_ok_iff,
    Bool.not_eq_true', Bool.or_eq_false_iff, Bool.not_eq_false', beq_eq_false_iff_ne]
  constructor
  . rintro ⟨_, ⟨hid, hne⟩, rfl⟩
    exact ⟨⟨hid, hne⟩, rfl⟩
  . rintro ⟨⟨hid, hne⟩, rfl⟩
    exact ⟨(), ⟨hid, hne⟩, rfl⟩

theorem ofWire_eq_ok_iff {wire : OwnerWire} {bundle : OwnerAccountBundle crates}
    : ofWire crates wire = .ok bundle
        ↔
      bundle.Valid
        ∧ (wire = bundle.wire ∨ wire = bundle.legacyWire ∧ bundle.HasLegacySecret) := by
  rcases wire with ⟨originText, idText, publishText, downloadText, keyText, secretText⟩
  simp only [ofWire, Except.bind_eq_ok_iff, Except.mapError_eq_ok_iff, decodeBundleSecret_eq_ok_iff,
    ServiceOrigin.parse_eq_ok_iff, AccountId.parse_eq_ok_iff, fromParts_eq_ok_iff]
  constructor
  . rintro ⟨key, rfl, secret, hsecret, origin, rfl, id, ⟨rfl, _⟩, publish, rfl, download, rfl,
      hvalid, rfl⟩
    refine ⟨hvalid, ?_⟩
    rcases secretText with _ | _ | secretText
    . injection hsecret with hsecret
      exact Or.inr ⟨rfl, hsecret.symm⟩
    . simp [secretOfWire] at hsecret
    . rw [secretOfWire, decodeBundleSecret_eq_ok_iff] at hsecret
      subst hsecret
      exact Or.inl rfl
  . rintro ⟨hvalid, hwire⟩
    rcases bundle with ⟨origin, id, publish, download, key, secret⟩
    rcases hwire with hwire | ⟨hwire, hlegacy⟩
    . simp only [wire, OwnerWire.mk.injEq] at hwire
      rcases hwire with ⟨rfl, rfl, rfl, rfl, rfl, rfl⟩
      exact ⟨key.bytes, rfl, secret.bytes, decodeBundleSecret_eq_ok_iff.mpr rfl, origin, rfl, id,
        ⟨rfl, hvalid.1⟩, publish.bytes, rfl, download.bytes, rfl, hvalid, rfl⟩
    . simp only [legacyWire, wire, OwnerWire.mk.injEq] at hwire
      rcases hwire with ⟨rfl, rfl, rfl, rfl, rfl, rfl⟩
      exact ⟨key.bytes, rfl, secret.bytes, congrArg Except.ok hlegacy.symm, origin, rfl, id,
        ⟨rfl, hvalid.1⟩, publish.bytes, rfl, download.bytes, rfl, hvalid, rfl⟩

theorem intoScoped_eq (bundle : OwnerAccountBundle crates) (scope : ApiKeyScope)
    : bundle.intoScoped scope = bundle.scoped scope := by
  rfl

theorem valid_scoped {bundle : OwnerAccountBundle crates} (h : bundle.Valid) (scope : ApiKeyScope)
    : (bundle.scoped scope).Valid := by
  cases scope with
  | publish => exact ⟨h.1, rfl, rfl⟩
  | download => exact ⟨h.1, rfl, rfl⟩

end OwnerAccountBundle

namespace AccountBundle

def Valid (bundle : AccountBundle crates) : Prop :=
  match bundle with
  | .scoped bundle => bundle.Valid
  | .owner bundle => bundle.Valid

def IsLegacyText (text : List UInt8) (bundle : AccountBundle crates) : Prop :=
  ∃ owner : OwnerAccountBundle crates,
    bundle = .owner owner
      ∧ owner.HasLegacySecret
      ∧ text = Base64.encode (AccountBundleWire.owner owner.legacyWire).toVec

theorem length_toVec_le (bundle : AccountBundle crates)
    : bundle.wire.toVec.length ≤ maxBundleBytes := by
  cases bundle with
  | «scoped» bundle => apply bundle.length_toVec_le
  | owner bundle => apply bundle.length_toVec_le

theorem encode_eq_ok (bundle : AccountBundle crates)
    : bundle.encode = .ok (Base64.encode bundle.wire.toVec) := by
  simp only [encode, bundle.length_toVec_le]
  rfl

theorem valid_of_ofWire {wire : AccountBundleWire} {bundle : AccountBundle crates}
    (h : ofWire crates wire = .ok bundle) : bundle.Valid := by
  cases wire with
  | «scoped» wire =>
    simp only [ofWire, Except.bind_eq_ok_iff, Except.pure_eq_ok_iff] at h
    rcases h with ⟨bundle, h, rfl⟩
    exact ScopedAccountBundle.valid_of_ofWire h
  | owner wire =>
    simp only [ofWire, Except.bind_eq_ok_iff, Except.pure_eq_ok_iff] at h
    rcases h with ⟨bundle, h, rfl⟩
    exact (OwnerAccountBundle.ofWire_eq_ok_iff.mp h).1

theorem ofWire_wire {bundle : AccountBundle crates} (h : bundle.Valid)
    : ofWire crates bundle.wire = .ok bundle := by
  cases bundle with
  | «scoped» bundle =>
    simp only [ofWire, wire, Except.bind_eq_ok_iff, Except.pure_eq_ok_iff]
    exact ⟨bundle, ScopedAccountBundle.ofWire_wire h, rfl⟩
  | owner bundle =>
    simp only [ofWire, wire, Except.bind_eq_ok_iff, Except.pure_eq_ok_iff]
    exact ⟨bundle, OwnerAccountBundle.ofWire_eq_ok_iff.mpr ⟨h, Or.inl rfl⟩, rfl⟩

theorem parse_eq_ok_iff_wire {input : List UInt8} {bundle : AccountBundle crates}
    : parse crates input = .ok bundle
        ↔
      ∃ wire,
        input.length ≤ maxBundleEncodedBytes
          ∧ (Base64.decode input).bind fromSlice = some wire
          ∧ ofWire crates wire = .ok bundle
          ∧ input = Base64.encode (if wire.legacyOwner then wire else bundle.wire).toVec := by
  simp only [parse, Except.bind_eq_ok_iff, Except.ensure_eq_ok_iff, Except.okOr_eq_ok_iff,
    Except.mapError_eq_ok_iff, Except.pure_eq_ok_iff, encode_eq_ok, Option.bind_eq_some_iff,
    Option.filter_eq_some_iff, Base64.decode_eq_some_iff]
  constructor
  . rintro ⟨_, hlength, decoded, ⟨rfl, _⟩, wire, hwire, _, hlegacy, b, hb, text, htext, _,
      hcanonical, rfl⟩
    injection htext with htext
    subst htext
    refine ⟨wire, ?_, ⟨decoded, rfl, hwire⟩, hb, ?_⟩
    . simp only [Bool.not_eq_true', Bool.or_eq_false_iff, decide_eq_false_iff_not] at hlength
      omega
    . cases hkind : wire.legacyOwner with
      | true =>
        rw [hkind] at hlegacy
        simp at hlegacy
        simp [hlegacy]
      | false =>
        rw [hkind] at hcanonical
        simp at hcanonical
        simp [hcanonical]
  . rintro ⟨wire, hlength, ⟨decoded, hdecoded, hwire⟩, hb, hcanonical⟩
    subst hdecoded
    have hpayload := Base64.encode_injective hcanonical
    have hnonempty : (Base64.encode decoded).isEmpty = false := by
      rw [List.isEmpty_eq_false_iff, ← List.length_pos_iff, Base64.length_encode]
      cases decoded with
      | nil =>
        have hempty : fromSlice [] = none := by decide +kernel
        rw [hempty] at hwire
        simp at hwire
      | cons b decoded =>
        rw [List.length_cons]
        omega
    refine ⟨(), ?_, decoded, ⟨rfl, ?_⟩, wire, hwire, (), ?_, bundle, hb, _, rfl, (), ?_, rfl⟩
    . simp [hnonempty, hlength]
    . rw [Base64.length_encode] at hlength
      apply decide_eq_true
      simp only [maxBundleEncodedBytes, maxBundleBytes] at hlength ⊢
      omega
    . cases hkind : wire.legacyOwner with
      | true =>
        rw [hkind] at hpayload
        simp [hpayload]
      | false => rfl
    . cases hkind : wire.legacyOwner with
      | true => rfl
      | false =>
        rw [hkind] at hpayload
        simp [hpayload]

theorem length_encode_toVec_le {payload : List UInt8} (h : payload.length ≤ maxBundleBytes)
    : (Base64.encode payload).length ≤ maxBundleEncodedBytes := by
  rw [Base64.length_encode]
  simp only [maxBundleEncodedBytes, maxBundleBytes] at h ⊢
  omega

theorem decode_bind_fromSlice (payload : List UInt8)
    : (Base64.decode (Base64.encode payload)).bind fromSlice = fromSlice payload := by
  rw [Base64.decode_encode]
  rfl

theorem parse_eq_ok_iff {input : List UInt8} {bundle : AccountBundle crates}
    : parse crates input = .ok bundle
        ↔
      bundle.Valid ∧ (bundle.encode = .ok input ∨ bundle.IsLegacyText input) := by
  rw [parse_eq_ok_iff_wire, encode_eq_ok]
  constructor
  . rintro ⟨wire, _, _, hwire, hinput⟩
    refine ⟨valid_of_ofWire hwire, ?_⟩
    cases hkind : wire.legacyOwner with
    | false =>
      rw [hkind] at hinput
      exact Or.inl (congrArg Except.ok hinput.symm)
    | true =>
      rw [hkind] at hinput
      right
      cases wire with
      | «scoped» wire => simp [legacyOwner] at hkind
      | owner wire =>
        simp only [ofWire, Except.bind_eq_ok_iff, Except.pure_eq_ok_iff] at hwire
        rcases hwire with ⟨owner, hwire, rfl⟩
        rcases (OwnerAccountBundle.ofWire_eq_ok_iff.mp hwire).2 with rfl | ⟨rfl, hlegacy⟩
        . simp [legacyOwner, OwnerAccountBundle.wire] at hkind
        . exact ⟨owner, rfl, hlegacy, hinput⟩
  . rintro ⟨hvalid, hinput | ⟨owner, rfl, hlegacy, hinput⟩⟩
    . injection hinput with hinput
      subst hinput
      refine ⟨bundle.wire, length_encode_toVec_le bundle.length_toVec_le, ?_, ofWire_wire hvalid, ?_⟩
      . rw [decode_bind_fromSlice, fromSlice_wire]
      . simp
    . subst hinput
      refine ⟨.owner owner.legacyWire, length_encode_toVec_le owner.length_legacy_toVec_le, ?_, ?_,
        rfl⟩
      . rw [decode_bind_fromSlice]
        apply fromSlice_toVec
        exact owner.readable_legacy_members
      . simp only [ofWire, Except.bind_eq_ok_iff, Except.pure_eq_ok_iff]
        exact ⟨owner, OwnerAccountBundle.ofWire_eq_ok_iff.mpr ⟨hvalid, Or.inr ⟨rfl, hlegacy⟩⟩, rfl⟩

inductive Obtained : AccountBundle crates → Prop where
  | parse {input : List UInt8} {bundle : AccountBundle crates}
    : AccountBundle.parse crates input = .ok bundle → Obtained bundle
  | owner {origin : ServiceOrigin crates} {id : AccountId} {publish download : ApiToken}
    {key : AccountRootKey} {secret : ConsumerIdentitySecret} {bundle : OwnerAccountBundle crates}
    : OwnerAccountBundle.fromParts origin id publish download key secret = .ok bundle →
      Obtained (.owner bundle)
  | «scoped» {bundle : OwnerAccountBundle crates} (scope : ApiKeyScope)
    : Obtained (.owner bundle) → Obtained (.scoped (bundle.scoped scope))
  | intoScoped {bundle : OwnerAccountBundle crates} (scope : ApiKeyScope)
    : Obtained (.owner bundle) → Obtained (.scoped (bundle.intoScoped scope))
  | download {origin : ServiceOrigin crates} {id : AccountId} {token : ApiToken}
    {key : AccountRootKey} {secret : ConsumerIdentitySecret} {bundle : ScopedAccountBundle crates}
    : ScopedAccountBundle.fromDownloadParts origin id token key secret = .ok bundle →
      Obtained (.scoped bundle)
  | publish {origin : ServiceOrigin crates} {id : AccountId} {token : ApiToken}
    {key : AccountRootKey} {identity : Option AuthorizedConsumerIdentity}
    {bundle : ScopedAccountBundle crates}
    : ScopedAccountBundle.fromParts origin id .publish token key identity = .ok bundle →
      Obtained (.scoped bundle)

theorem Obtained.valid {bundle : AccountBundle crates} (h : bundle.Obtained) : bundle.Valid := by
  induction h with
  | parse h => exact (parse_eq_ok_iff.mp h).1
  | owner h => exact (OwnerAccountBundle.fromParts_eq_ok_iff.mp h).1
  | «scoped» scope _ ih => exact OwnerAccountBundle.valid_scoped ih scope
  | intoScoped scope _ ih =>
    rw [OwnerAccountBundle.intoScoped_eq]
    exact OwnerAccountBundle.valid_scoped ih scope
  | download h => exact ScopedAccountBundle.valid_of_fromDownloadParts h
  | publish h => exact ScopedAccountBundle.valid_of_fromParts h

theorem obtained_iff {bundle : AccountBundle crates} : bundle.Obtained ↔ bundle.Valid := by
  constructor
  . apply Obtained.valid
  . intro h
    apply Obtained.parse
    apply parse_eq_ok_iff.mpr
    exact ⟨h, Or.inl (encode_eq_ok bundle)⟩

end AccountBundle

/--
A publish bundle with a consumer secret, a download bundle with an authorized identity or without a
secret, and an owner bundle with a `null` secret or whose tokens hash equally.
-/
def AccountBundleWire.Malformed (crates : AccountCrates) (wire : AccountBundleWire) : Prop :=
  match wire with
  | .scoped wire =>
    (wire.apiKeyScope = 1 ∧ wire.consumerIdentitySecret.isSome = true)
      ∨ (wire.apiKeyScope = 2
        ∧ (wire.authorizedConsumerIdentity.isSome = true ∨ wire.consumerIdentitySecret = none))
  | .owner wire =>
    wire.consumerIdentitySecret = some none
      ∨ ∃ publish download,
          decodeBundleSecret wire.publishApiToken = .ok publish
            ∧ decodeBundleSecret wire.downloadApiToken = .ok download
            ∧ ApiToken.serviceHash crates ⟨publish⟩ = ApiToken.serviceHash crates ⟨download⟩

namespace AccountBundle

theorem not_malformed_owner {owner : OwnerAccountBundle crates} {wire : OwnerWire}
    (hvalid : owner.Valid) (hpublish : wire.publishApiToken = owner.publishApiToken.encode)
    (hdownload : wire.downloadApiToken = owner.downloadApiToken.encode)
    (hsecret : wire.consumerIdentitySecret ≠ some none)
    : ¬(AccountBundleWire.owner wire).Malformed crates := by
  rintro (hnull | ⟨publish, download, hp, hd, heq⟩)
  . exact hsecret hnull
  . rw [decodeBundleSecret_eq_ok_iff, hpublish] at hp
    rw [decodeBundleSecret_eq_ok_iff, hdownload] at hd
    have hp : owner.publishApiToken.bytes = publish :=
      Vector.toList_inj.mp (Base64.encode_injective hp)
    have hd : owner.downloadApiToken.bytes = download :=
      Vector.toList_inj.mp (Base64.encode_injective hd)
    subst hp hd
    exact hvalid.2 heq

theorem not_malformed_wire {bundle : AccountBundle crates} (hvalid : bundle.Valid)
    : ¬bundle.wire.Malformed crates := by
  cases bundle with
  | «scoped» bundle =>
    rcases bundle with ⟨origin, id, scope, token, key, identity, secret⟩
    rcases hvalid with ⟨_, hscope⟩
    cases scope with
    | publish =>
      simp only at hscope
      simp [wire, ScopedAccountBundle.wire, Malformed, ApiKeyScope.toU8, hscope.2]
    | download =>
      simp only at hscope
      have hsecret := Option.isSome_iff_ne_none.mp hscope.2
      simp [wire, ScopedAccountBundle.wire, Malformed, ApiKeyScope.toU8, hscope.1, hsecret]
  | owner bundle =>
    apply not_malformed_owner hvalid
    . rfl
    . rfl
    . simp [OwnerAccountBundle.wire]

theorem canonical_of_parse {payload : List UInt8} {wire : AccountBundleWire}
    {bundle : AccountBundle crates} (hwire : fromSlice payload = some wire)
    (h : parse crates (Base64.encode payload) = .ok bundle)
    : payload = wire.toVec ∧ ¬wire.Malformed crates := by
  rw [parse_eq_ok_iff, encode_eq_ok] at h
  rcases h with ⟨hvalid, htext | ⟨owner, rfl, _, htext⟩⟩
  . injection htext with htext
    have hpayload := Base64.encode_injective htext
    rw [← hpayload, fromSlice_wire] at hwire
    injection hwire with hwire
    rw [← hwire]
    exact ⟨hpayload.symm, not_malformed_wire hvalid⟩
  . have hpayload := Base64.encode_injective htext
    have hlegacy : fromSlice (AccountBundleWire.owner owner.legacyWire).toVec
        = some (.owner owner.legacyWire) := by
      apply fromSlice_toVec
      exact owner.readable_legacy_members
    rw [hpayload, hlegacy] at hwire
    injection hwire with hwire
    rw [← hwire]
    refine ⟨hpayload, ?_⟩
    apply not_malformed_owner hvalid
    . rfl
    . rfl
    . simp [OwnerAccountBundle.legacyWire]

theorem encode_ne_legacy {owner : OwnerAccountBundle crates} {text : List UInt8}
    (htext : (AccountBundle.owner owner).encode = .ok text)
    : text ≠ Base64.encode (AccountBundleWire.owner owner.legacyWire).toVec := by
  rw [encode_eq_ok] at htext
  injection htext with htext
  rintro rfl
  have hpayload := congrArg fromSlice (Base64.encode_injective htext)
  have hlegacy : fromSlice (AccountBundleWire.owner owner.legacyWire).toVec
      = some (.owner owner.legacyWire) := by
    apply fromSlice_toVec
    exact owner.readable_legacy_members
  rw [fromSlice_wire, hlegacy] at hpayload
  simp [wire, OwnerAccountBundle.legacyWire, OwnerAccountBundle.wire] at hpayload

theorem bundle_codec (crates : AccountCrates)
    : (∀ bundle : AccountBundle crates, bundle.Obtained →
        ∃ text, bundle.encode = .ok text
          ∧ text.length ≤ maxBundleEncodedBytes
          ∧ parse crates text = .ok bundle)
      ∧ (∀ (input : List UInt8) (bundle : AccountBundle crates),
          parse crates input = .ok bundle
            ↔
          bundle.Obtained ∧ (bundle.encode = .ok input ∨ bundle.IsLegacyText input))
      ∧ (∀ input : List UInt8, (∀ payload, input ≠ Base64.encode payload) →
          ∀ bundle, parse crates input ≠ .ok bundle)
      ∧ (∀ payload : List UInt8, fromSlice payload = none →
          ∀ bundle, parse crates (Base64.encode payload) ≠ .ok bundle)
      ∧ (∀ (payload : List UInt8) (wire : AccountBundleWire), fromSlice payload = some wire →
          payload ≠ wire.toVec ∨ wire.Malformed crates →
            ∀ bundle, parse crates (Base64.encode payload) ≠ .ok bundle)
      ∧ (∀ (input : List UInt8) (bundle : AccountBundle crates),
          parse crates input = .ok bundle → bundle.IsLegacyText input →
            ∃ text, bundle.encode = .ok text ∧ text ≠ input ∧ parse crates text = .ok bundle) := by
  refine ⟨?_, ?_, ?_, ?_, ?_, ?_⟩
  . intro bundle hbundle
    refine ⟨_, encode_eq_ok bundle, length_encode_toVec_le bundle.length_toVec_le, ?_⟩
    exact parse_eq_ok_iff.mpr ⟨hbundle.valid, Or.inl (encode_eq_ok bundle)⟩
  . intro input bundle
    rw [obtained_iff]
    exact parse_eq_ok_iff
  . intro input hinput bundle h
    rcases parse_eq_ok_iff_wire.mp h with ⟨_, _, _, _, htext⟩
    exact hinput _ htext
  . intro payload hpayload bundle h
    rcases parse_eq_ok_iff_wire.mp h with ⟨_, _, hwire, _⟩
    rw [decode_bind_fromSlice, hpayload] at hwire
    simp at hwire
  . intro payload wire hwire hbad bundle h
    have hgood := canonical_of_parse hwire h
    cases hbad with
    | inl hne => exact hne hgood.1
    | inr hmalformed => exact hgood.2 hmalformed
  . rintro input bundle h ⟨owner, rfl, _, rfl⟩
    have hvalid := (parse_eq_ok_iff.mp h).1
    refine ⟨_, encode_eq_ok _, encode_ne_legacy (encode_eq_ok _), ?_⟩
    exact parse_eq_ok_iff.mpr ⟨hvalid, Or.inl (encode_eq_ok _)⟩

end AccountBundle

def Fixture.owner : OwnerAccountBundle Fixture.accountCrates where
  serviceOrigin := ⟨Fixture.origin, by decide +kernel⟩
  accountId := Fixture.testAccountId
  publishApiToken := Fixture.publishToken
  downloadApiToken := Fixture.downloadToken
  accountRootKey := Fixture.rootKey
  consumerIdentitySecret := ⟨Fixture.legacySecret⟩

namespace AccountBundle

theorem bundle_codec_historical
    : ∃ text,
        (AccountBundle.owner Fixture.owner).encode = .ok text
          ∧ text ≠ Base64.encode (AccountBundleWire.owner Fixture.owner.legacyWire).toVec
          ∧ parse Fixture.accountCrates text = .ok (.owner Fixture.owner) := by
  apply (bundle_codec Fixture.accountCrates).2.2.2.2.2
  . decide +kernel
  . exact ⟨Fixture.owner, rfl, by unfold OwnerAccountBundle.HasLegacySecret; decide +kernel, rfl⟩

end AccountBundle

end Attached
