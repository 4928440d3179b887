import PartnerChains.Algorithm.PermissionedCandidates
import PartnerChains.Algorithm.ScriptUtxos

/-!
# Transactions that move the bridged token

Deposits to the illiquid supply, and deposits to and the handover of the reserve. A transaction is
what the builders put together before it is balanced: the outputs at validator addresses that it
spends, the outputs that it creates, and what it mints.
-/

namespace PartnerChains

/-! ## Datums -/

def TokenTransferDatum.toPlutusData (datum : TokenTransferDatum) : PlutusData :=
  VersionedGenericDatum.toPlutusData
    { version := 1
      datum := .constr 0 []
      appendix := match datum with
        | .userTransfer receiver => .constr 0 [.bytes receiver]
        | .reserveTransfer => .constr 1 [] }

namespace SmartContracts

namespace ReserveDatum

def toPlutusData (value : ReserveDatum) : PlutusData :=
  let token := value.immutableSettings.token
  VersionedGenericDatum.toPlutusData
    { datum := .list
        [.constr 0 [.bytes token.policyId.val, .bytes token.assetName.toList],
          .list [.bytes value.mutableSettings.totalAccruedFunctionAssetName.val,
            .integer value.mutableSettings.initialIncentive.toNat],
          .integer value.stats.tokenTotalAmountTransferred.toNat]
      appendix := .constr 0 []
      version := 0 }

def afterWithdrawal (datum : ReserveDatum) (amount : UInt64) : ReserveDatum :=
  { datum with
    stats := { tokenTotalAmountTransferred := datum.stats.tokenTotalAmountTransferred + amount } }

end ReserveDatum

/-! ## Transactions -/

structure TokenAmount where
  token : AssetId
  amount : UInt64
  deriving DecidableEq

/-- An output with the least amount of ada that the ledger asks for. -/
structure TransactionOutput where
  address : MainchainAddress
  plutusData : Option PlutusData
  multiasset : MultiAsset

structure Transaction where
  inputs : List OgmiosUtxo
  outputs : List TransactionOutput
  mint : List (PolicyId × ℤ)

inductive BuildError where
  | js (error : JsError)
  | anyhow (error : AnyhowError)
  | panic (panic : Panic)
  deriving DecidableEq

abbrev ScriptHash := PolicyId

/-- A script, with its address on the network that is used. -/
structure PlutusScript where
  scriptHash : ScriptHash
  address : MainchainAddress
  deriving DecidableEq

/-- The validators and policies that the builders need. -/
structure ScriptsData where
  icsValidator : PlutusScript
  reserveValidator : PlutusScript
  reserveAuthPolicy : PolicyId
  governancePolicy : PolicyId

def ScriptsData.icsAddress (scripts : ScriptsData) : MainchainAddress :=
  scripts.icsValidator.address

def ScriptsData.reserveAddress (scripts : ScriptsData) : MainchainAddress :=
  scripts.reserveValidator.address

def orElse {α : Type} (error : BuildError) : Option α → Except BuildError α
  | some value => .ok value
  | none => .error error

/-- The value of an input is converted with it. -/
def scriptInput (utxo : OgmiosUtxo) : Except BuildError OgmiosUtxo := do
  let _ ← utxo.value.toCsl.mapError .js
  .ok utxo

/-! ## Deposits to the illiquid supply -/

def toUserTransferDatum (pcAddress : ByteString) : PlutusData :=
  TokenTransferDatum.toPlutusData (.userTransfer pcAddress)

def depositOnlyTx (icsAddress : MainchainAddress) (tokenAmount : TokenAmount)
    (pcAddress : ByteString) : Except BuildError Transaction :=
  let ma := MultiAsset.withAssetAmount ∅ tokenAmount.token tokenAmount.amount
  .ok { inputs := []
        outputs := [⟨icsAddress, some (toUserTransferDatum pcAddress), ma⟩]
        mint := [] }

def depositTx (icsAddress : MainchainAddress) (icsUtxo : OgmiosUtxo) (tokenAmount : TokenAmount)
    (pcAddress : ByteString) : Except BuildError Transaction := do
  let value ← icsUtxo.value.toCsl.mapError fun _ =>
    .panic ⟨"called Result::unwrap() on an Err value"⟩
  let ma ← orElse (.panic ⟨"ics_utxo has at least 'auth token'"⟩) value.multiasset
  let policyId := tokenAmount.token.policyId
  let assets := (ma.lookup policyId).getD ∅
  let assetName := tokenAmount.token.assetName.toList
  let amount := (assets.lookup assetName).getD 0
  let amount ← orElse (.js .overflow) (amount.checkedAdd tokenAmount.amount)
  let ma := ma.insert policyId (assets.insert assetName amount)
  let icsInput ← scriptInput icsUtxo
  .ok { inputs := [icsInput]
        outputs := [⟨icsAddress, some (toUserTransferDatum pcAddress), ma⟩]
        mint := [] }

/-! ## Deposits to the reserve -/

def validatorOutput (fromBytes : ByteString → Option PlutusData) (tokenAmount : TokenAmount)
    (currentUtxo : OgmiosUtxo) (scripts : ScriptsData) :
    Except BuildError TransactionOutput := do
  let datum ← orElse (.panic ⟨"Current UTXO datum was parsed hence it exists"⟩)
    (currentUtxo.getPlutusData fromBytes)
  let ma := ((MultiAsset.withAssetAmount ∅ tokenAmount.token tokenAmount.amount).withAssetAmount
    (emptyNameAsset scripts.reserveAuthPolicy) 1)
  .ok ⟨scripts.reserveAddress, some datum, ma⟩

def depositToReserveTx (fromBytes : ByteString → Option PlutusData) (parameters : TokenAmount)
    (currentUtxo : OgmiosUtxo) (scripts : ScriptsData) : Except BuildError Transaction := do
  let output ← validatorOutput fromBytes parameters currentUtxo scripts
  let input ← scriptInput currentUtxo
  .ok { inputs := [input], outputs := [output], mint := [(scripts.governancePolicy, 1)] }

def depositToReserve (fromBytes : ByteString → Option PlutusData) (overflowChecks : Bool)
    (scripts : ScriptsData) (reserveUtxo : ReserveUtxo) (amount : UInt64) :
    Except BuildError Transaction := do
  let utxo := reserveUtxo.utxo
  let token := reserveUtxo.datum.immutableSettings.token
  let currentAmount := utxo.getAssetAmount token
  let total ←
    (Checked.addWith overflowChecks 64 currentAmount.toNat amount.toNat).mapError .panic
  depositToReserveTx fromBytes ⟨token, .ofNat total⟩ utxo scripts

/-! ## Handover of the reserve -/

def getAmountToRelease (reserveUtxo : ReserveUtxo) : TokenAmount :=
  let token := reserveUtxo.datum.immutableSettings.token
  ⟨token, reserveUtxo.utxo.getAssetAmount token⟩

def illiquidSupplyValidatorOutput (outputValue : TokenAmount) (scripts : ScriptsData) :
    TransactionOutput :=
  if outputValue.amount > 0 then
    ⟨scripts.icsAddress, some (TokenTransferDatum.toPlutusData .reserveTransfer),
      outputValue.token.toMultiAsset outputValue.amount⟩
  else ⟨scripts.icsAddress, none, ∅⟩

def handoverReserveTx (scripts : ScriptsData) (reserveUtxo : ReserveUtxo) :
    Except BuildError Transaction := do
  let input ← scriptInput reserveUtxo.utxo
  .ok { inputs := [input]
        outputs := [illiquidSupplyValidatorOutput (getAmountToRelease reserveUtxo) scripts]
        mint := [(scripts.governancePolicy, 1), (scripts.reserveAuthPolicy, -1)] }

end SmartContracts

end PartnerChains
