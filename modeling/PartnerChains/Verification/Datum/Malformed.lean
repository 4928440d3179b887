import PartnerChains.Algorithm.CandidatesSource
import PartnerChains.Verification.GovernedMap.Queries
import PartnerChains.Verification.RegisteredCandidates.RoundTrip

/-!
# Malformed datums

Both observations skip outputs that are not entries. The decoder of a registration looks at the
number of fields before it reads one. The decoder of a map entry does not, and panics on a list
that is too short.
-/

namespace PartnerChains

open Fallible

/-! ## Registrations -/

namespace Candidates

open RegisteredCandidates

def IsRegistration (datum : PlutusData) : Prop :=
  ∃ registration, RegisterValidatorDatum.decode datum = .ok (.ok registration)

theorem exists_parseCandidate (output : MainchainTxOutput) :
    ∃ result, parseCandidate output = .ok result := by
  unfold parseCandidate
  cases output.datum with
  | none => exact ⟨_, rfl⟩
  | some datum =>
      obtain ⟨result, hresult⟩ := exists_decode datum
      cases result with
      | error error => exact ⟨_, by simp [hresult]; rfl⟩
      | ok registration => exact ⟨_, by simp [hresult]; rfl⟩

theorem parseCandidate_of_malformed {output : MainchainTxOutput}
    (h : ∀ datum ∈ output.datum, ¬ IsRegistration datum) :
    ∃ failure, parseCandidate output = .ok (.error failure) := by
  unfold parseCandidate
  cases hdatum : output.datum with
  | none => exact ⟨_, rfl⟩
  | some datum =>
      obtain ⟨result, hresult⟩ := exists_decode datum
      cases result with
      | error error => exact ⟨_, by simp [hresult]; rfl⟩
      | ok registration => exact absurd ⟨registration, hresult⟩ (h datum hdatum)

/-- An output that is not a registration can stand anywhere, and parsing never panics. -/
theorem parseCandidates_insert (before after : List MainchainTxOutput) {bad : MainchainTxOutput}
    (hbad : ∀ datum ∈ bad.datum, ¬ IsRegistration datum) :
    ∃ candidates, parseCandidates (before ++ after) = .ok candidates ∧
      parseCandidates (before ++ bad :: after) = .ok candidates := by
  choose parsed hparsed using exists_parseCandidate
  obtain ⟨failure, hfailure⟩ := parseCandidate_of_malformed hbad
  have hskipped : parsed bad = .error failure :=
    Except.ok.inj ((hparsed bad).symm.trans hfailure)
  refine ⟨((before ++ after).map parsed).filterMap Except.toOption, ?_, ?_⟩
  · rw [parseCandidates, mapM_eq_ok_map fun output _ => hparsed output]
    rfl
  · rw [parseCandidates, mapM_eq_ok_map fun output _ => hparsed output]
    simp [List.filterMap_cons, hskipped, Except.toOption]

end Candidates

/-! ## Map entries -/

namespace GovernedMap

open DbSync Relational Candidates

/-- A list that starts with a key and a value. -/
def IsEntry (datum : PlutusData) : Prop :=
  ∃ key value rest, datum = .list (.bytes key :: .bytes value :: rest) ∧
    (GovernedMapDatum.stringFromUtf8 key).isSome

/-- No element, or a key that no value follows. -/
def TooShort (datum : PlutusData) : Prop :=
  datum = .list [] ∨ ∃ key, (GovernedMapDatum.stringFromUtf8 key).isSome ∧
    datum = .list [.bytes key]

theorem asBytes_eq_some {data : PlutusData} {value : ByteString}
    (h : data.asBytes = some value) : data = .bytes value := by
  cases data with
  | bytes bytes => exact congrArg PlutusData.bytes (Option.some.inj h)
  | _ => cases h

theorem tryFrom_of_tooShort {datum : PlutusData} (h : TooShort datum) :
    ∃ panic, GovernedMapDatum.tryFrom datum = .error panic := by
  obtain rfl | ⟨key, hkey, rfl⟩ := h
  · exact ⟨_, rfl⟩
  · obtain ⟨name, hname⟩ := Option.isSome_iff_exists.mp hkey
    refine ⟨⟨"index out of bounds: the len is 1 but the index is 1"⟩, ?_⟩
    simp [GovernedMapDatum.tryFrom, PlutusData.asList, PlutusData.get, PlutusData.asBytes, hname]
    decide

theorem tryFrom_of_malformed {datum : PlutusData} (hentry : ¬ IsEntry datum)
    (hshort : ¬ TooShort datum) : ∃ error, GovernedMapDatum.tryFrom datum = .ok (.error error) := by
  cases datum with
  | list elements =>
      cases elements with
      | nil => exact absurd (.inl rfl) hshort
      | cons first rest =>
          cases hkey : first.asBytes.bind GovernedMapDatum.stringFromUtf8 with
          | none =>
              refine ⟨⟨.list (first :: rest), "GovernedMapDatum",
                "Expected List([UTF8String, Bytes])"⟩, ?_⟩
              simp [GovernedMapDatum.tryFrom, PlutusData.asList, PlutusData.get, hkey]
          | some name =>
              obtain ⟨key, hfirst, hname⟩ := Option.bind_eq_some_iff.mp hkey
              obtain rfl := asBytes_eq_some hfirst
              have hname : (GovernedMapDatum.stringFromUtf8 key).isSome := by simp [hname]
              -- a second element there is, but not a value
              cases rest with
              | nil => exact absurd (.inr ⟨key, hname, rfl⟩) hshort
              | cons second rest =>
                  cases hvalue : second.asBytes with
                  | none =>
                      refine ⟨⟨.list (.bytes key :: second :: rest), "GovernedMapDatum",
                        "Expected List([UTF8String, Bytes])"⟩, ?_⟩
                      simp [GovernedMapDatum.tryFrom, PlutusData.asList, PlutusData.get, hkey,
                        hvalue]
                  | some value =>
                      obtain rfl := asBytes_eq_some hvalue
                      exact absurd ⟨key, value, rest, rfl, hname⟩ hentry
  | _ => exact ⟨_, rfl⟩

/-- The block is known, and the query for the map at this block returns the datums. -/
def Listed (order : Arrangement DatumAtRow.orderKey) (db : Database) (hash : McBlockHash)
    (scripts : MainChainScriptsV1) (txInConfig : TxInConfiguration)
    (entries : List PlutusData) : Prop :=
  ∃ block, getBlockByHash db hash = .ok (some block) ∧
    getDatumsAtAddressWithToken order db scripts.validatorAddress block.blockNo
      (Asset.new scripts.assetPolicyId) txInConfig = .ok entries

variable {order : Arrangement DatumAtRow.orderKey} {db db' : Database} {hash : McBlockHash}
  {scripts : MainChainScriptsV1} {txInConfig : TxInConfiguration}
  {before after : List PlutusData} {bad : PlutusData}

theorem Listed.getMappingsEntries_eq {entries : List PlutusData}
    (h : Listed order db hash scripts txInConfig entries) :
    getMappingsEntries order db hash scripts txInConfig =
      (entries.foldlM insertEntry ∅).mapError .panic := by
  obtain ⟨block, hblock, hentries⟩ := h
  simp [getMappingsEntries, hblock, hentries]

theorem getMappingsEntries_skip (hrest : Listed order db hash scripts txInConfig (before ++ after))
    (hall : Listed order db' hash scripts txInConfig (before ++ bad :: after))
    (hentry : ¬ IsEntry bad) (hshort : ¬ TooShort bad) :
    getMappingsEntries order db' hash scripts txInConfig =
      getMappingsEntries order db hash scripts txInConfig := by
  obtain ⟨error, herror⟩ := tryFrom_of_malformed hentry hshort
  have hskip (mappings : Mappings) : insertEntry mappings bad = .ok mappings := by
    simp [insertEntry, herror]
  rw [hrest.getMappingsEntries_eq, hall.getMappingsEntries_eq, foldlM_skip hskip]

theorem getMappingsEntries_panic
    (hrest : Listed order db hash scripts txInConfig (before ++ after))
    (hall : Listed order db' hash scripts txInConfig (before ++ bad :: after))
    (hshort : TooShort bad) {mappings : Mappings}
    (h : getMappingsEntries order db hash scripts txInConfig = .ok mappings) :
    ∃ panic, getMappingsEntries order db' hash scripts txInConfig = .error (.panic panic) := by
  obtain ⟨panic, hpanic⟩ := tryFrom_of_tooShort hshort
  have hfail (mappings : Mappings) : insertEntry mappings bad = .error panic := by
    simp [insertEntry, hpanic]
  rw [hrest.getMappingsEntries_eq, mapError_eq_ok_iff] at h
  exact ⟨panic, by rw [hall.getMappingsEntries_eq, foldlM_fail hfail h]; rfl⟩

/-- A map entry in one transaction of block 5, and an output with a given datum in another. -/
def databaseWith (datum : PlutusData) : Database where
  block := [⟨1, .filled 32 1, some 5, some 1, some 50, 500⟩]
  tx := [⟨1, .filled 32 2, 1, 0⟩, ⟨2, .filled 32 3, 1, 1⟩]
  txOut := [⟨1, 1, 0, "addr", some (.filled 32 7), none⟩,
    ⟨2, 2, 0, "addr", some (.filled 32 8), none⟩]
  txIn := []
  maTxOut := [⟨1, 1, 1⟩, ⟨1, 2, 1⟩]
  multiAsset := [⟨1, .filled 28 3, []⟩]
  datum := [⟨.filled 32 7, .data (.list [.bytes [107], .bytes [7]])⟩,
    ⟨.filled 32 8, .data datum⟩]

/-- The same without the second output. -/
def databaseWithout : Database :=
  { databaseWith (.integer 0) with txOut := [⟨1, 1, 0, "addr", some (.filled 32 7), none⟩] }

end GovernedMap

end PartnerChains
