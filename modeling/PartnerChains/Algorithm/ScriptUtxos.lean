import PartnerChains.Algorithm.Ogmios

/-!
# Lookups among the outputs at the validator addresses

Anyone can create outputs at these addresses. An output is recognized by its datum, by a token
that only the policy of the scripts can mint, or by both.
-/

namespace PartnerChains

/-! ## Datums -/

def PlutusData.asU32 (data : PlutusData) : Option UInt32 :=
  data.asU64.bind fun value => if value < 2 ^ 32 then some (.ofNat value) else none

namespace SmartContracts

structure VersionOracleDatum where
  versionOracle : UInt32
  currencySymbol : Bytes 28
  deriving DecidableEq

def VersionOracleDatum.tryFrom (datum : PlutusData) :
    Except DataDecodingError VersionOracleDatum :=
  let decoded := match datum.asList with
    | some [versionOracle, currencySymbol] => do
        let versionOracle ← versionOracle.asU32
        let currencySymbol ← currencySymbol.asBytes
        let currencySymbol ← Bytes.tryFrom 28 currencySymbol
        some ⟨versionOracle, currencySymbol⟩
    | _ => none
  match decoded with
  | some decoded => .ok decoded
  | none => .error ⟨datum, "VersionOracleDatum", "Expected [u32, [u8;32]]"⟩

structure ReserveImmutableSettings where
  token : AssetId
  deriving DecidableEq

structure ReserveMutableSettings where
  totalAccruedFunctionAssetName : PolicyId
  initialIncentive : UInt64
  deriving DecidableEq

structure ReserveStats where
  tokenTotalAmountTransferred : UInt64
  deriving DecidableEq

structure ReserveDatum where
  immutableSettings : ReserveImmutableSettings
  mutableSettings : ReserveMutableSettings
  stats : ReserveStats
  deriving DecidableEq

/-- Further fields are not looked at. -/
def decodeTokenIdDatum (data : PlutusData) : Option AssetId :=
  match data.asConstrPlutusData with
  | some (0, policyId :: assetName :: _) => do
      let policyId ← policyId.asBytes
      let assetName ← assetName.asBytes
      some ⟨← Bytes.tryFrom 28 policyId, ← BoundedVec.tryFrom 32 assetName⟩
  | _ => none

def decodeMutableSettings (data : PlutusData) : Option ReserveMutableSettings :=
  match data.asList with
  | some (scriptHash :: initialIncentive :: _) => do
      let scriptHash ← scriptHash.asBytes
      let initialIncentive ← initialIncentive.asU64
      some ⟨← Bytes.tryFrom 28 scriptHash, .ofNat initialIncentive⟩
  | _ => none

def decodeV0ReserveDatum (datum : PlutusData) : Option ReserveDatum :=
  match datum.asList with
  | some (token :: mutableSettings :: stats :: _) => do
      let token ← decodeTokenIdDatum token
      let mutableSettings ← decodeMutableSettings mutableSettings
      let tokenTotalAmountTransferred ← stats.asU64
      some ⟨⟨token⟩, mutableSettings, ⟨.ofNat tokenTotalAmountTransferred⟩⟩
  | _ => none

def ReserveDatum.decode (datum : PlutusData) : Except DataDecodingError ReserveDatum :=
  match plutusDataVersionAndPayload datum with
  | none => .error ⟨datum, "ReserveDatum", "unversioned datum"⟩
  | some versioned =>
      if versioned.version = 0 then
        match decodeV0ReserveDatum versioned.datum with
        | some decoded => .ok decoded
        | none => .error ⟨versioned.datum, "ReserveDatum", "invalid data"⟩
      else .error ⟨datum, "ReserveDatum", "unversioned datum"⟩

/-! ## Version oracle -/

section Lookups

variable (fromBytes : ByteString → Option PlutusData)

def versionOracleDatum (utxo : OgmiosUtxo) : Option VersionOracleDatum :=
  (utxo.getPlutusData fromBytes).bind fun data => (VersionOracleDatum.tryFrom data).toOption

/-- The datum has the identifier of the script and the policy of the version oracle. -/
def hasScriptDatum (scriptId : UInt32) (versionOraclePolicy : PolicyId) (utxo : OgmiosUtxo) :
    Bool :=
  (versionOracleDatum fromBytes utxo).any fun datum =>
    datum.versionOracle = scriptId && datum.currencySymbol = versionOraclePolicy

def findScriptUtxo (scriptId : UInt32) (versionOraclePolicy : PolicyId)
    (validatorUtxos : List OgmiosUtxo) : Option OgmiosUtxo :=
  validatorUtxos.find? (hasScriptDatum fromBytes scriptId versionOraclePolicy)

def scriptIsInitialized (scriptId : UInt32) (versionOraclePolicy : PolicyId)
    (validatorUtxos : List OgmiosUtxo) : Bool :=
  (findScriptUtxo fromBytes scriptId versionOraclePolicy validatorUtxos).isSome

def governancePolicyScriptId : UInt32 := 32

/-- Unlike in `hasScriptDatum`, the token is asked for and the policy in the datum is not. -/
def getGovernanceUtxo (versionOraclePolicy : PolicyId) (utxos : List OgmiosUtxo) :
    Option OgmiosUtxo :=
  utxos.find? fun utxo =>
    let correctDatum := (versionOracleDatum fromBytes utxo).any fun datum =>
      datum.versionOracle = governancePolicyScriptId
    let containsVersionOracleToken :=
      (utxo.value.nativeTokens.lookup versionOraclePolicy).isSome
    correctDatum && containsVersionOracleToken

/-! ## Reserve -/

structure ReserveUtxo where
  utxo : OgmiosUtxo
  datum : ReserveDatum
  deriving DecidableEq

structure AnyhowError where
  message : String
  deriving DecidableEq

def asReserveUtxo (authPolicy : PolicyId) (utxo : OgmiosUtxo) : Option ReserveUtxo :=
  if utxo.getAssetAmount (emptyNameAsset authPolicy) ≠ 1 then none
  else do
    let data ← utxo.getPlutusData fromBytes
    let datum ← (ReserveDatum.decode data).toOption
    some ⟨utxo, datum⟩

def getReserveUtxo (authPolicy : PolicyId) (validatorUtxos : List OgmiosUtxo) :
    Except AnyhowError ReserveUtxo :=
  match validatorUtxos.findSome? (asReserveUtxo fromBytes authPolicy) with
  | some reserveUtxo => .ok reserveUtxo
  | none =>
      .error ⟨"Reserve Utxo not found, is the Reserve Token Management initialized?"⟩

/-! ## Governed map -/

/-- An entry of the map, with its output. Decoding its datum may panic. -/
def ogmiosUtxoToGovernedMapUtxo (token : PolicyId) (utxo : OgmiosUtxo) :
    Except Panic (Option (OgmiosUtxo × GovernedMapDatum)) :=
  if (utxo.value.nativeTokens.lookup token).isNone then .ok none
  else
    match utxo.getPlutusData fromBytes with
    | none => .ok none
    | some data => do
        match ← GovernedMapDatum.tryFrom data with
        | .ok datum => .ok (some (utxo, datum))
        | .error _ => .ok none

def ogmiosUtxosToGovernedMapUtxos (utxos : List OgmiosUtxo) (token : PolicyId) :
    Except Panic (List (OgmiosUtxo × GovernedMapDatum)) :=
  utxos.filterMapM (ogmiosUtxoToGovernedMapUtxo fromBytes token)

/-- What is made of the entry of an output, when it has the key. -/
def ofEntryWithKey {α : Type} (token : PolicyId) (key : String)
    (result : OgmiosUtxo × GovernedMapDatum → α) (utxo : OgmiosUtxo) :
    Except Panic (Option α) := do
  match ← ogmiosUtxoToGovernedMapUtxo fromBytes token utxo with
  | none => .ok none
  | some entry => .ok (if entry.2.key = key then some (result entry) else none)

/-- The outputs after the first one with the key are not decoded. -/
def getCurrentValue (validatorUtxos : List OgmiosUtxo) (key : String) (token : PolicyId) :
    Except Panic (Option ByteString) :=
  validatorUtxos.findSomeM? (ofEntryWithKey fromBytes token key fun entry => entry.2.value)

def getUtxosForKey (validatorUtxos : List OgmiosUtxo) (key : String) (token : PolicyId) :
    Except Panic (List OgmiosUtxo) :=
  validatorUtxos.filterMapM (ofEntryWithKey fromBytes token key Prod.fst)

end Lookups

end SmartContracts

end PartnerChains
