import PartnerChains.Algorithm.RegisteredCandidates
import PartnerChains.Verification.PermissionedCandidates.RoundTrip

/-!
# Registrations are read back

Each part of a datum is read back as it was written, and so is each version of the whole datum.
A registration without a version is a constructor and one with a version is a list, so that
neither is taken for the other.
-/

namespace PartnerChains.RegisteredCandidates

open AuthoritySelection PermissionedCandidates Fallible

/-! ## Decoders -/

namespace Decoder

variable {α : Type}

@[simp]
theorem ofOption_some (value : α) : ofOption (some value) = pure value := rfl

@[simp]
theorem bytes_bytes (value : ByteString) : bytes (.bytes value) = pure value := rfl

@[simp]
theorem array_bytes {length : ℕ} (value : Bytes length) :
    array length (.bytes value.val) = pure value := by
  simp [array, Bytes.tryFrom_val]

variable {fields : List PlutusData}

theorem get_of_lt {index : ℕ} (h : index < fields.length) :
    get fields index = pure fields[index] := by
  simp only [get, PlutusData.get, List.getElem?_eq_getElem h]
  rfl

theorem constructorFields_constr {accepted : ℕ → Bool} (h : accepted fields.length = true) :
    constructorFields accepted (.constr 0 fields) = pure fields := by
  simp [constructorFields, PlutusData.asConstrPlutusData, h]

@[simp]
theorem okOr_pure (message : String) (value : α) : okOr message (pure value) = .ok (.ok value) :=
  rfl

theorem okOr_eq_ok_iff {message : String} {decoder : Decoder α} {value : α} :
    okOr message decoder = .ok (.ok value) ↔ decoder.run = .ok (some value) := by
  unfold okOr
  cases hrun : decoder.run with
  | error panic => simp
  | ok result => cases result <;> simp

theorem returns_ofOption (value : Option α) : Returns (fun _ => True) (ofOption value) :=
  ⟨value, rfl, fun _ _ => trivial⟩

theorem returns_get {index : ℕ} (h : index < fields.length) :
    Returns (fun _ => True) (get fields index) := by
  rw [get_of_lt h]
  exact returns_pure trivial

theorem returns_bytes (data : PlutusData) : Returns (fun _ => True) (bytes data) :=
  returns_ofOption _

theorem returns_array (length : ℕ) (data : PlutusData) :
    Returns (fun _ => True) (array length data) :=
  (returns_bytes data).bind fun _ _ => returns_ofOption _

/-- A field is read and decoded, and the rest is done with its value. -/
theorem returns_field {β : Type} {P : β → Prop} {index : ℕ} {decode : PlutusData → Decoder α}
    {rest : α → Decoder β} (h : index < fields.length)
    (hdecode : ∀ data, Returns (fun _ => True) (decode data))
    (hrest : ∀ value, Returns P (rest value)) :
    Returns P (do rest (← decode (← get fields index))) :=
  (returns_get h).bind fun data _ => (hdecode data).bind fun value _ => hrest value

theorem returns_constructorFields (accepted : ℕ → Bool) (data : PlutusData) :
    Returns (fun fields => accepted fields.length = true ∧ data = .constr 0 fields)
      (constructorFields accepted data) := by
  refine ⟨_, rfl, fun fields hfields => ?_⟩
  cases data with
  | constr alternative elements =>
      cases alternative with
      | zero =>
          simp only [PlutusData.asConstrPlutusData, Option.mem_def] at hfields
          split_ifs at hfields with haccepted
          obtain rfl := Option.some.inj hfields
          exact ⟨haccepted, rfl⟩
      | succ alternative => simp [PlutusData.asConstrPlutusData] at hfields
  | _ => simp [PlutusData.asConstrPlutusData] at hfields

end Decoder

open Decoder

/-! ## Decoders do not panic -/

theorem returns_decodeTxHashDatum (datum : PlutusData) :
    Returns (fun _ => True) (decodeTxHashDatum datum) := by
  refine (returns_constructorFields _ datum).bind fun fields hfields => ?_
  have hlength : 1 ≤ fields.length := of_decide_eq_true hfields.1
  exact (returns_get (by omega)).bind fun _ _ => returns_array _ _

theorem returns_decodeUtxoIdDatum (datum : PlutusData) :
    Returns (fun _ => True) (decodeUtxoIdDatum datum) := by
  refine (returns_constructorFields _ datum).bind fun fields hfields => ?_
  have hlength : 2 ≤ fields.length := of_decide_eq_true hfields.1
  exact returns_field (by omega) returns_decodeTxHashDatum fun _ =>
    returns_field (by omega) (fun _ => returns_ofOption _) fun _ => returns_pure trivial

theorem returns_decodeAdaBasedStakingDatum (datum : PlutusData) :
    Returns (fun _ => True) (decodeAdaBasedStakingDatum datum) := by
  refine (returns_constructorFields _ datum).bind fun fields hfields => ?_
  have hlength : 2 ≤ fields.length := of_decide_eq_true hfields.1
  exact returns_field (by omega) (returns_array _) fun _ =>
    returns_field (by omega) (returns_array _) fun _ => returns_pure trivial

theorem returns_decodeV0RegisterValidatorDatum (datum appendix : PlutusData) :
    Returns (fun _ => True) (decodeV0RegisterValidatorDatum datum appendix) := by
  refine (returns_constructorFields _ appendix).bind fun fields hfields => ?_
  have hlength : 6 ≤ fields.length := of_decide_eq_true hfields.1
  refine returns_field (by omega) returns_decodeAdaBasedStakingDatum fun _ => ?_
  refine returns_field (by omega) returns_bytes fun _ => ?_
  refine returns_field (by omega) returns_bytes fun _ => ?_
  refine returns_field (by omega) returns_decodeUtxoIdDatum fun _ => ?_
  refine returns_field (by omega) returns_bytes fun _ => ?_
  refine returns_field (by omega) returns_bytes fun _ => ?_
  exact (returns_array _ _).bind fun _ _ => returns_pure trivial

theorem returns_decodeV1RegisterValidatorDatum (datum appendix : PlutusData) :
    Returns (fun _ => True) (decodeV1RegisterValidatorDatum datum appendix) := by
  refine (returns_constructorFields _ appendix).bind fun fields hfields => ?_
  have hlength : fields.length = 5 := of_decide_eq_true hfields.1
  refine returns_field (by omega) returns_decodeAdaBasedStakingDatum fun _ => ?_
  refine returns_field (by omega) returns_bytes fun _ => ?_
  refine returns_field (by omega) returns_bytes fun _ => ?_
  refine returns_field (by omega) returns_decodeUtxoIdDatum fun _ => ?_
  refine returns_field (by omega) (fun _ => returns_ofOption _) fun _ => ?_
  exact (returns_array _ _).bind fun _ _ => returns_pure trivial

/-- What is decoded from a registration without a version. -/
def FromLegacy (data : PlutusData) (datum : RegisterValidatorDatum) : Prop :=
  (∃ fields, data = .constr 0 fields) ∧
    ∃ stakeOwnership sidechainPubKey sidechainSignature registrationUtxo ownPkh auraPubKey
      grandpaPubKey, datum = .v0 stakeOwnership sidechainPubKey sidechainSignature
        registrationUtxo ownPkh auraPubKey grandpaPubKey

theorem returns_decodeLegacyRegisterValidatorDatum (datum : PlutusData) :
    Returns (FromLegacy datum) (decodeLegacyRegisterValidatorDatum datum) := by
  refine (returns_constructorFields _ datum).bind fun fields hfields => ?_
  have hlength : 7 ≤ fields.length := of_decide_eq_true hfields.1
  refine returns_field (by omega) returns_decodeAdaBasedStakingDatum fun _ => ?_
  refine returns_field (by omega) returns_bytes fun _ => ?_
  refine returns_field (by omega) returns_bytes fun _ => ?_
  refine returns_field (by omega) returns_decodeUtxoIdDatum fun _ => ?_
  refine returns_field (by omega) (returns_array _) fun _ => ?_
  refine returns_field (by omega) returns_bytes fun _ => ?_
  refine returns_field (by omega) returns_bytes fun _ => ?_
  exact returns_pure ⟨⟨fields, hfields.2⟩, _, _, _, _, _, _, _, rfl⟩

theorem Decoder.exists_okOr {α : Type} {P : α → Prop} {decoder : Decoder α}
    (h : Returns P decoder) (message : String) : ∃ result, okOr message decoder = .ok result := by
  obtain ⟨result, hrun, -⟩ := h
  cases result with
  | none => exact ⟨.error message, by simp [okOr, hrun]⟩
  | some value => exact ⟨.ok value, by simp [okOr, hrun]⟩

theorem exists_decodeVersioned (version : ℕ) (datum appendix : PlutusData) :
    ∃ result, RegisterValidatorDatum.decodeVersioned version datum appendix = .ok result := by
  match version with
  | 0 => exact exists_okOr (returns_decodeV0RegisterValidatorDatum datum appendix) _
  | 1 => exact exists_okOr (returns_decodeV1RegisterValidatorDatum datum appendix) _
  | _ + 2 => exact ⟨_, rfl⟩

/-- Whatever the datum is, decoding it ends with a registration or with an error. -/
theorem exists_decode (data : PlutusData) :
    ∃ result, RegisterValidatorDatum.decode data = .ok result := by
  unfold RegisterValidatorDatum.decode
  cases plutusDataVersionAndPayload data with
  | none =>
      obtain ⟨result, hresult⟩ :=
        exists_okOr (returns_decodeLegacyRegisterValidatorDatum data) "Invalid data"
      exact ⟨_, by simp [RegisterValidatorDatum.decodeLegacy, hresult]; rfl⟩
  | some versioned =>
      obtain ⟨result, hresult⟩ :=
        exists_decodeVersioned versioned.version versioned.datum versioned.appendix
      exact ⟨_, by simp [hresult]; rfl⟩

/-! ## Round trips -/

theorem asU16_integer {value : ℕ} (h : value < 2 ^ 16) :
    (PlutusData.integer value).asU16 = some (.ofNat value) := by
  have h32 : value < 2 ^ 32 := by omega
  have hu32 : (PlutusData.integer value).asU32 = some (.ofNat value) := by
    rw [PlutusData.asU32, asU64_integer (by omega), Option.bind_some, if_pos h32]
  rw [PlutusData.asU16, hu32, Option.bind_some, UInt32.toNat_ofNat_of_lt' h32, if_pos h]

@[simp]
theorem decodeTxHashDatum_toPlutusData (hash : McTxHash) :
    decodeTxHashDatum (txHashToPlutusData hash) = pure hash := by
  rw [decodeTxHashDatum, txHashToPlutusData, constructorFields_constr rfl]
  simp [get_of_lt]

@[simp]
theorem decodeUtxoIdDatum_toPlutusData (utxo : RegistrationUtxo) :
    decodeUtxoIdDatum (utxoIdToPlutusData utxo) = pure utxo := by
  obtain ⟨⟨txHash, index⟩, hindex⟩ := utxo
  have hindex : index < 2 ^ 16 := hindex
  have htoNat : (UInt16.ofNat index).toNat = index := UInt16.toNat_ofNat_of_lt' hindex
  rw [decodeUtxoIdDatum, utxoIdToPlutusData, constructorFields_constr rfl]
  simp [get_of_lt, asU16_integer hindex, htoNat, -UInt16.toNat_ofNat']

@[simp]
theorem decodeAdaBasedStakingDatum_toPlutusData (ownership : AdaBasedStaking) :
    decodeAdaBasedStakingDatum (stakeOwnershipToPlutusData ownership) = pure ownership := by
  rw [decodeAdaBasedStakingDatum, stakeOwnershipToPlutusData, constructorFields_constr rfl]
  simp [get_of_lt]

theorem decode_toPlutusData (datum : RegisterValidatorDatum) :
    RegisterValidatorDatum.decode datum.toPlutusData = .ok (.ok datum) := by
  cases datum with
  | v0 =>
      rw [RegisterValidatorDatum.decode, RegisterValidatorDatum.toPlutusData,
        plutusDataVersionAndPayload_toPlutusData (show 0 < 2 ^ 64 by decide)]
      simp only [RegisterValidatorDatum.decodeVersioned, decodeV0RegisterValidatorDatum]
      rw [constructorFields_constr rfl]
      simp [get_of_lt]
  | v1 =>
      rw [RegisterValidatorDatum.decode, RegisterValidatorDatum.toPlutusData,
        plutusDataVersionAndPayload_toPlutusData (show 1 < 2 ^ 64 by decide)]
      simp only [RegisterValidatorDatum.decodeVersioned, decodeV1RegisterValidatorDatum]
      rw [constructorFields_constr rfl]
      simp [get_of_lt, decodeCandidateKeys_toPlutus]

/-- The same registration, but that the two keys of the old form have the Aura key in front. -/
structure Restored (registration restored : CandidateRegistration) : Prop where
  same : restored = { registration with keys := restored.keys }
  keys : restored.keys = registration.keys ∨ ∃ aura grandpa,
    registration.keys = [⟨grandpaKeyTypeId, grandpa⟩, ⟨auraKeyTypeId, aura⟩] ∧
      restored.keys = [⟨auraKeyTypeId, aura⟩, ⟨grandpaKeyTypeId, grandpa⟩]

theorem decode_candidateRegistration (registration : CandidateRegistration) :
    ∃ datum, RegisterValidatorDatum.decode (candidateRegistrationToPlutusData registration) =
        .ok (.ok datum) ∧ Restored registration (.ofDatum datum) := by
  refine ⟨_, decode_toPlutusData _, ?_⟩
  cases honly : hasOnlyAuraAndGrandpaKeys registration.keys with
  | false => exact ⟨rfl, .inl rfl⟩
  | true =>
      refine ⟨rfl, ?_⟩
      obtain ⟨aura, grandpa, hkeys | hkeys⟩ := hasOnlyAuraAndGrandpaKeys_iff.mp honly
      · left
        simp [CandidateRegistration.ofDatum, hkeys, findOrEmpty_aura, findOrEmpty_grandpa]
      · refine .inr ⟨aura, grandpa, hkeys, ?_⟩
        simp [CandidateRegistration.ofDatum, hkeys, findOrEmpty_aura, findOrEmpty_grandpa]

/-! ## The two forms are told apart -/

variable {data : PlutusData} {datum : RegisterValidatorDatum}

/-- A registration without a version has none to be read. -/
theorem fromLegacy_of_decodeLegacy
    (h : RegisterValidatorDatum.decodeLegacy data = .ok (.ok datum)) : FromLegacy data datum :=
  (returns_decodeLegacyRegisterValidatorDatum data).of_run_eq_some (okOr_eq_ok_iff.mp h)

theorem plutusDataVersionAndPayload_constr (alternative : ℕ) (fields : List PlutusData) :
    plutusDataVersionAndPayload (.constr alternative fields) = none := rfl

theorem decode_of_decodeLegacy (h : RegisterValidatorDatum.decodeLegacy data = .ok (.ok datum)) :
    RegisterValidatorDatum.decode data = .ok (.ok datum) := by
  obtain ⟨⟨fields, rfl⟩, -⟩ := fromLegacy_of_decodeLegacy h
  rw [RegisterValidatorDatum.decode, plutusDataVersionAndPayload_constr]
  simp [h]

theorem decodeLegacy_of_decode (hversion : plutusDataVersionAndPayload data = none)
    (h : RegisterValidatorDatum.decode data = .ok (.ok datum)) :
    RegisterValidatorDatum.decodeLegacy data = .ok (.ok datum) := by
  rw [RegisterValidatorDatum.decode, hversion] at h
  obtain ⟨decoded, hdecoded, hok⟩ := bind_eq_ok_iff.mp h
  rw [hdecoded, mapError_eq_ok_iff.mp (Except.ok.inj hok)]

theorem decodeLegacy_of_versioned {versioned : VersionedGenericDatum}
    (h : plutusDataVersionAndPayload data = some versioned) :
    RegisterValidatorDatum.decodeLegacy data = .ok (.error "Invalid data") := by
  cases data with
  | list elements => rfl
  | _ => cases h

/-- The value that is decoded from a registration without a version is encoded in version 0. -/
theorem candidateRegistrationToPlutusData_ofDatum (h : FromLegacy data datum) :
    candidateRegistrationToPlutusData (.ofDatum datum) = datum.toPlutusData := by
  obtain ⟨-, stakeOwnership, sidechainPubKey, sidechainSignature, registrationUtxo, ownPkh, aura,
    grandpa, rfl⟩ := h
  have honly : hasOnlyAuraAndGrandpaKeys
      [⟨auraKeyTypeId, aura⟩, ⟨grandpaKeyTypeId, grandpa⟩] = true :=
    hasOnlyAuraAndGrandpaKeys_iff.mpr ⟨aura, grandpa, .inl rfl⟩
  simp [candidateRegistrationToPlutusData, CandidateRegistration.ofDatum, honly,
    findOrEmpty_aura, findOrEmpty_grandpa]

/-- A registration is read back from its datum, up to the order of the two keys of the old form.
What is decoded from a datum without a version is encoded with a version and decoded to the same
value, and no datum is taken for one of the other form. -/
theorem registration_datum_round_trip :
    (∀ registration : CandidateRegistration, ∃ datum,
      RegisterValidatorDatum.decode (candidateRegistrationToPlutusData registration) =
        .ok (.ok datum) ∧ Restored registration (.ofDatum datum)) ∧
    (∀ data datum, plutusDataVersionAndPayload data = none →
      RegisterValidatorDatum.decode data = .ok (.ok datum) →
        (plutusDataVersionAndPayload datum.toPlutusData).isSome ∧
        RegisterValidatorDatum.decode datum.toPlutusData = .ok (.ok datum) ∧
        candidateRegistrationToPlutusData (.ofDatum datum) = datum.toPlutusData) ∧
    (∀ data datum, RegisterValidatorDatum.decodeLegacy data = .ok (.ok datum) →
      plutusDataVersionAndPayload data = none ∧
        RegisterValidatorDatum.decode data = .ok (.ok datum)) ∧
    ∀ data versioned, plutusDataVersionAndPayload data = some versioned →
      RegisterValidatorDatum.decodeLegacy data = .ok (.error "Invalid data") := by
  refine ⟨decode_candidateRegistration, fun data datum hversion h => ?_, fun data datum h => ?_,
    fun data versioned h => decodeLegacy_of_versioned h⟩
  · have hlegacy := fromLegacy_of_decodeLegacy (decodeLegacy_of_decode hversion h)
    refine ⟨?_, decode_toPlutusData datum, candidateRegistrationToPlutusData_ofDatum hlegacy⟩
    obtain ⟨-, _, _, _, _, _, _, _, rfl⟩ := hlegacy
    rw [RegisterValidatorDatum.toPlutusData,
      plutusDataVersionAndPayload_toPlutusData (show 0 < 2 ^ 64 by decide)]
    rfl
  · obtain ⟨⟨fields, rfl⟩, -⟩ := fromLegacy_of_decodeLegacy h
    exact ⟨rfl, decode_of_decodeLegacy h⟩

def candidateSample : CandidateRegistration :=
  { stakeOwnership := ⟨⟨List.replicate 32 1, rfl⟩, ⟨List.replicate 64 2, rfl⟩⟩
    partnerChainPubKey := [3]
    partnerChainSignature := [4]
    ownPkh := ⟨List.replicate 28 6, rfl⟩
    registrationUtxo := ⟨⟨⟨List.replicate 32 5, rfl⟩, 1⟩, by decide⟩
    keys := [⟨auraKeyTypeId, [7]⟩, ⟨grandpaKeyTypeId, [8]⟩] }

def sampleLegacyDatum : PlutusData :=
  .constr 0 [stakeOwnershipToPlutusData candidateSample.stakeOwnership, .bytes [3], .bytes [4],
    utxoIdToPlutusData candidateSample.registrationUtxo,
    .bytes candidateSample.ownPkh.val, .bytes [7], .bytes [8]]

def sampleDatum : RegisterValidatorDatum :=
  .v0 candidateSample.stakeOwnership [3] [4] candidateSample.registrationUtxo
    candidateSample.ownPkh [7] [8]

theorem registration_datum_round_trip_sample :
    RegisterValidatorDatum.decodeLegacy sampleLegacyDatum = .ok (.ok sampleDatum) ∧
    RegisterValidatorDatum.decode sampleLegacyDatum = .ok (.ok sampleDatum) ∧
    candidateRegistrationToPlutusData (.ofDatum sampleDatum) = sampleDatum.toPlutusData ∧
    RegisterValidatorDatum.decodeLegacy sampleDatum.toPlutusData = .ok (.error "Invalid data") := by
  obtain ⟨-, hlegacy, hforms, hversioned⟩ := registration_datum_round_trip
  have hdecoded : RegisterValidatorDatum.decodeLegacy sampleLegacyDatum =
      .ok (.ok sampleDatum) := by decide +kernel
  obtain ⟨hversion, hdecode⟩ := hforms _ _ hdecoded
  obtain ⟨hsome, -, hencoded⟩ := hlegacy _ _ hversion hdecode
  obtain ⟨versioned, hsome⟩ := Option.isSome_iff_exists.mp hsome
  exact ⟨hdecoded, hdecode, hencoded, hversioned _ _ hsome⟩

end PartnerChains.RegisteredCandidates
