import PartnerChains.Algorithm.Multisig

/-!
# Releases from the reserve

The outputs of the reserve and of the illiquid supply are spent together. The higher one of the
two costs is given to the reserve.
-/

namespace PartnerChains.SmartContracts

/-- Costs are compared by memory first. -/
def ExUnits.orderKey (units : ExUnits) : ℕ ×ₗ ℕ := toLex (units.mem.toNat, units.steps.toNat)

inductive ReserveRedeemer where
  | depositToReserve
  | releaseFromReserve
  | updateReserve
  | handover
  deriving DecidableEq

def ReserveRedeemer.toPlutusData : ReserveRedeemer → PlutusData
  | depositToReserve => .constr 0 []
  | releaseFromReserve => .constr 1 []
  | updateReserve => .constr 2 []
  | handover => .constr 3 []

def releaseSpendCosts (costs : Costs) : Except Panic (List ExUnits) := do
  let spendIndices := costs.getSpendIndices
  let second ← costs.getSpend (spendIndices[1]?.getD 0)
  let first ← costs.getSpend (spendIndices[0]?.getD 0)
  .ok ([second, first].insertionSort fun a b => a.orderKey ≤ b.orderKey)

def noneUnwrapped : BuildError := .panic ⟨"called Option::unwrap() on a None value"⟩

/-- `vFunction` is the script of the reference UTXO, if it has one. -/
def reserveReleaseTx (lib : SerializationLib) (ctx : TransactionContext) (scripts : ScriptsData)
    (previousReserve : ReserveUtxo) (icsUtxo : OgmiosUtxo) (vFunction : Option PlutusScript)
    (amountToTransfer : UInt64) (costs : Costs) : Except BuildError BalancedTransaction := do
  let token := previousReserve.datum.immutableSettings.token
  let stats := previousReserve.datum.stats
  let reserveBalance := previousReserve.utxo.getAssetAmount token
  let icsBalance := icsUtxo.getAssetAmount token
  let cumulativeTotalTransfer ←
    orElse (.panic ⟨"cumulative_total_transfer can't overflow u64"⟩)
      (BigNum.checkedAdd stats.tokenTotalAmountTransferred amountToTransfer)
  let leftInReserve ← orElse
    (.anyhow ⟨s!"Not enough funds in the reserve to transfer {amountToTransfer} tokens " ++
      s!"(reserve balance: {reserveBalance})"⟩)
    (BigNum.checkedSub reserveBalance amountToTransfer)
  let vFunction ←
    orElse (.anyhow ⟨"V-Function reference script missing from the reference UTXO"⟩) vFunction
  let mintUnits ← (costs.getMint vFunction).mapError .panic
  let spendCosts ← (releaseSpendCosts costs).mapError .panic
  let reserveUnits ← orElse noneUnwrapped spendCosts[1]?
  let reserveInput ← addScriptUtxoInput previousReserve.utxo scripts.reserveValidator
    (ReserveRedeemer.toPlutusData .releaseFromReserve) reserveUnits
  let icsUnits ← orElse noneUnwrapped spendCosts[0]?
  let icsInput ← addScriptUtxoInput icsUtxo scripts.icsValidator (.integer 0) icsUnits
  let icsValue ← icsUtxo.value.toCsl.mapError .js
  let icsTokens ← orElse (.panic ⟨"ICS UTXO should have native tokens"⟩) icsValue.multiasset
  let assets : Assets :=
    AList.singleton token.assetName.toList (BigNum.saturatingAdd amountToTransfer icsBalance)
  let icsTokens := icsTokens.insert token.policyId assets
  let reserveTokens ← (MultiAsset.fromOgmiosUtxo previousReserve.utxo).mapError .js
  balanceUpdateAndBuild lib
    { scriptInputs := [reserveInput, icsInput]
      outputs :=
        [⟨scripts.icsAddress, some (TokenTransferDatum.toPlutusData .reserveTransfer), icsTokens⟩,
          ⟨scripts.reserveAddress,
            some (previousReserve.datum.afterWithdrawal amountToTransfer).toPlutusData,
            reserveTokens.withAssetAmount token leftInReserve⟩]
      mint := [⟨vFunction.scriptHash, cumulativeTotalTransfer.toNat,
        some (unitPlutusData, mintUnits)⟩] } ctx

end PartnerChains.SmartContracts
