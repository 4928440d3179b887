import PartnerChains.Algorithm.GovernedMapTransactions
import PartnerChains.Algorithm.RegisteredCandidates
import PartnerChains.Library.StableOrder

/-!
# The D-parameter and the permissioned candidates

Each is the datum of an output at a validator of its own, which holds a token of its own policy. An
upsert mints the token when no output is found, and spends the output when its datum is another one.
-/

namespace PartnerChains

open AuthoritySelection

/-! ## Datums -/

inductive DParamDatum where
  | v0 (numPermissionedCandidates numRegisteredCandidates : UInt16)
  deriving DecidableEq

namespace DParamDatum

def decodeLegacy (data : PlutusData) : Except String DParamDatum :=
  let decoded := match data.asList with
    | some [numPermissionedCandidates, numRegisteredCandidates] => do
        let numPermissionedCandidates ← numPermissionedCandidates.asU16
        let numRegisteredCandidates ← numRegisteredCandidates.asU16
        some (v0 numPermissionedCandidates numRegisteredCandidates)
    | _ => none
  match decoded with
  | some datum => .ok datum
  | none => .error "Expected [u16, u16]"

def decodeVersioned (version : ℕ) (appendix : PlutusData) : Except String DParamDatum :=
  match version with
  | 0 => (decodeLegacy appendix).mapError fun msg => s!"Cannot parse appendix: {msg}"
  | _ => .error s!"Unknown version: {version}"

def decode (data : PlutusData) : Except DataDecodingError DParamDatum :=
  (match plutusDataVersionAndPayload data with
    | none => decodeLegacy data
    | some versioned => decodeVersioned versioned.version versioned.appendix).mapError
    fun msg => ⟨data, "DParamDatum", msg⟩

def toDParameter : DParamDatum → DParameter
  | v0 numPermissionedCandidates numRegisteredCandidates =>
      ⟨numPermissionedCandidates, numRegisteredCandidates⟩

end DParamDatum

def dParameterToPlutusData (dParam : DParameter) : PlutusData :=
  VersionedGenericDatum.toPlutusData
    { datum := .constr 0 []
      appendix := .list [.integer dParam.numPermissionedCandidates.toNat,
        .integer dParam.numRegisteredCandidates.toNat]
      version := 0 }

/-- Candidates are compared by their sidechain keys, then by their other keys in turn. -/
def AuthoritySelection.PermissionedCandidateData.orderKey (candidate : PermissionedCandidateData) :
    List ℕ ×ₗ List (List ℕ ×ₗ List ℕ) :=
  toLex (candidate.sidechainPublicKey.map UInt8.toNat, candidate.keys.map fun key =>
    toLex (key.id.val.map UInt8.toNat, key.bytes.map UInt8.toNat))

def sortCandidates (candidates : List PermissionedCandidateData) :
    List PermissionedCandidateData :=
  StableOrder.sortByKey PermissionedCandidateData.orderKey candidates

namespace SmartContracts

/-! ## Outputs with a token -/

/-- What is kept in the datum of an output with a token, and the texts of the errors. -/
structure KeptDatum (Value : Type) where
  encode : Value → PlutusData
  decode : PlutusData → Except DataDecodingError Value
  redeemerData : PlutusData
  multipleUtxos : String
  notDecoded : String

def dParamKept : KeptDatum DParameter where
  encode := dParameterToPlutusData
  decode data := (DParamDatum.decode data).map DParamDatum.toDParameter
  redeemerData := unitPlutusData
  multipleUtxos := "Multiple UTXOs with D-parameter token found"
  notDecoded := "Internal error: could not decode datum of D-parameter validator script: "

def permissionedCandidatesKept : KeptDatum (List PermissionedCandidateData) where
  encode := PermissionedCandidates.permissionedCandidatesToPlutusData
  decode data := (PermissionedCandidates.PermissionedCandidateDatums.decode data).map fun datums =>
    sortCandidates datums.toCandidates
  redeemerData := .integer 0
  multipleUtxos := "Multiple UTXOs with permissioned candidates token found"
  notDecoded :=
    "Internal error: could not decode datum of permissioned candidates validator script: "

section Upserts

variable {Value : Type} (kept : KeptDatum Value) (lib : SerializationLib)
  (nativeScriptHash : NativeScript → ScriptHash) (fromBytes : ByteString → Option PlutusData)
  (validator policy : PlutusScript)

/-- The message of a datum that is not decoded ends with the text of that error, which is left out
here. -/
def getCurrent (validatorUtxos : List OgmiosUtxo) :
    Except AnyhowError (Option (OgmiosUtxo × Value)) :=
  let utxosWithToken := validatorUtxos.filter fun utxo =>
    (utxo.value.nativeTokens.lookup policy.scriptHash).isSome
  if utxosWithToken.length > 1 then .error ⟨kept.multipleUtxos⟩
  else match utxosWithToken.head? with
    | none => .ok none
    | some utxo => do
        let datum ← utxo.datum.elim (.error ⟨"Invalid state: an UTXO at the validator script " ++
          "address does not have a datum"⟩) .ok
        let datumPlutusData ← (fromBytes datum).elim (.error ⟨kept.notDecoded⟩) .ok
        let current ← (kept.decode datumPlutusData).mapError fun _ => ⟨kept.notDecoded⟩
        .ok (some (utxo, current))

def mintTokenTx (value : Value) (governanceData : GovernanceData) (costs : Costs)
    (ctx : TransactionContext) : Except BuildError BalancedTransaction := do
  let exUnits ← (costs.getMint policy).mapError .panic
  let mint := addMintOneScriptToken policy kept.redeemerData exUnits
  let output := outputWithOneScriptToken validator policy (kept.encode value)
  let governanceMint ← addMintOneScriptTokenUsingReferenceScript nativeScriptHash
    governanceData.policy.script costs
  balanceUpdateAndBuild lib { outputs := [output], mint := [mint, governanceMint] } ctx

def updateTokenTx (value : Value) (scriptUtxo : OgmiosUtxo) (governanceData : GovernanceData)
    (costs : Costs) (ctx : TransactionContext) : Except BuildError BalancedTransaction := do
  let exUnits ← costs.getOneSpend.mapError .panic
  let input ← addScriptUtxoInput scriptUtxo validator kept.redeemerData exUnits
  let output := outputWithOneScriptToken validator policy (kept.encode value)
  let governanceMint ← addMintOneScriptTokenUsingReferenceScript nativeScriptHash
    governanceData.policy.script costs
  balanceUpdateAndBuild lib
    { scriptInputs := [input], outputs := [output], mint := [governanceMint] } ctx

def getCurrentDParameter := getCurrent dParamKept fromBytes policy

def mintDParamTokenTx := mintTokenTx dParamKept lib nativeScriptHash validator policy

def updateDParamTx := updateTokenTx dParamKept lib nativeScriptHash validator policy

def getCurrentPermissionedCandidates := getCurrent permissionedCandidatesKept fromBytes policy

def mintPermissionedCandidatesTokenTx :=
  mintTokenTx permissionedCandidatesKept lib nativeScriptHash validator policy

def updatePermissionedCandidatesTx :=
  updateTokenTx permissionedCandidatesKept lib nativeScriptHash validator policy

/-! ## Operations -/

def getDParam (validatorUtxos : List OgmiosUtxo) : Except AnyhowError (Option DParameter) := do
  .ok ((← getCurrentDParameter fromBytes policy validatorUtxos).map (·.2))

def getPermissionedCandidates (validatorUtxos : List OgmiosUtxo) :
    Except AnyhowError (Option (List PermissionedCandidateData)) := do
  .ok ((← getCurrentPermissionedCandidates fromBytes policy validatorUtxos).map (·.2))

variable (client : Client) (wallets : TemporaryWallets) (orders : IterationOrders)
  (ctx : TransactionContext) (governance : Except BuildError GovernanceData)

/-- The governance is read when a transaction is needed. -/
def upsertDParam (dParameter : DParameter) (validatorUtxos : List OgmiosUtxo) :
    Except BuildError (Option MultiSigSmartContractResult) := do
  match ← (getCurrentDParameter fromBytes policy validatorUtxos).mapError .anyhow with
  | some (currentUtxo, currentDParam) =>
      if currentDParam = dParameter then .ok none
      else do
        let result ← governedTx client wallets orders ctx governance "Update D-parameter"
          (updateDParamTx lib nativeScriptHash validator policy dParameter currentUtxo)
        awaitResult client result
  | none => do
      let result ← governedTx client wallets orders ctx governance "Insert D-parameter"
        (mintDParamTokenTx lib nativeScriptHash validator policy dParameter)
      awaitResult client result

/-- The governance is read first, and a submitted transaction is not waited for again. -/
def upsertPermissionedCandidates (candidates : List PermissionedCandidateData)
    (validatorUtxos : List OgmiosUtxo) :
    Except BuildError (Option MultiSigSmartContractResult) := do
  let governanceData ← governance
  let candidates := sortCandidates candidates
  let current ← (getCurrentPermissionedCandidates fromBytes policy validatorUtxos).mapError .anyhow
  match current with
  | some (currentUtxo, currentCandidates) =>
      if currentCandidates = candidates then .ok none
      else
        governedTx client wallets orders ctx (.ok governanceData) "Update Permissioned Candidates"
          (updatePermissionedCandidatesTx lib nativeScriptHash validator policy candidates
            currentUtxo)
  | none =>
      governedTx client wallets orders ctx (.ok governanceData) "Insert Permissioned Candidates"
        (mintPermissionedCandidatesTokenTx lib nativeScriptHash validator policy candidates)

end Upserts

end SmartContracts

end PartnerChains
