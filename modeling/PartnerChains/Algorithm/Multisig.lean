import PartnerChains.Algorithm.Governance
import PartnerChains.Algorithm.TransactionBuilding

/-!
# Transactions under governance

A transaction of the governance mints one token of the governance policy. If one key governs the
chain, the transaction is submitted. Otherwise it is paid from a temporary wallet and handed out
to be signed.
-/

namespace PartnerChains.SmartContracts

/-! ## Policies -/

inductive Script where
  | plutus (script : PlutusScript)
  | native (script : NativeScript)

structure PartnerChainsMultisigPolicy where
  script : PlutusScript
  keyHashes : List MainchainKeyHash
  threshold : UInt32
  deriving DecidableEq

inductive GovernancePolicyScript where
  | multiSig (policy : PartnerChainsMultisigPolicy)
  | atLeastNNativeScript (policy : SimpleAtLeastN)
  deriving DecidableEq

namespace GovernancePolicyScript

def script : GovernancePolicyScript → Script
  | multiSig policy => .plutus policy.script
  | atLeastNNativeScript policy => .native policy.toCslNativeScript

def isSingleKeyPolicyFor (keyHash : MainchainKeyHash) : GovernancePolicyScript → Bool
  | multiSig policy => policy.threshold = 1 && policy.keyHashes.length = 1 &&
      policy.keyHashes.any fun h => h = keyHash
  | atLeastNNativeScript policy => policy.threshold = 1 && policy.keyHashes.length = 1 &&
      policy.keyHashes.any fun h => h = keyHash

def containsAuthority (keyHash : MainchainKeyHash) : GovernancePolicyScript → Bool
  | multiSig policy => policy.keyHashes.any fun h => h = keyHash
  | atLeastNNativeScript policy => policy.keyHashes.any fun h => h = keyHash

end GovernancePolicyScript

structure GovernanceData where
  policy : GovernancePolicyScript
  utxo : OgmiosUtxo
  deriving DecidableEq

/-! ## Minting -/

/-- Tokens with the empty name. -/
def addMintScriptTokens (script : PlutusScript) (redeemerData : PlutusData) (exUnits : ExUnits)
    (amount : ℤ) : Minting :=
  ⟨script.scriptHash, amount, some (redeemerData, exUnits)⟩

def addMintOneScriptToken (script : PlutusScript) (redeemerData : PlutusData)
    (exUnits : ExUnits) : Minting :=
  addMintScriptTokens script redeemerData exUnits 1

def outputWithOneScriptToken (validator policy : PlutusScript) (datum : PlutusData) :
    TransactionOutput :=
  ⟨validator.address, some datum,
    MultiAsset.withAssetAmount ∅ (emptyNameAsset policy.scriptHash) 1⟩

section Minting

/-! The hash of a native script is a parameter. -/

variable (nativeScriptHash : NativeScript → ScriptHash)

def addMintScriptTokenUsingReferenceScript (script : Script) (amount : ℤ) (costs : Costs) :
    Except BuildError Minting :=
  match script with
  | .plutus script => do
      let exUnits ← (costs.getMint script).mapError .panic
      .ok ⟨script.scriptHash, amount, some (unitPlutusData, exUnits)⟩
  | .native script => .ok ⟨nativeScriptHash script, amount, none⟩

def addMintOneScriptTokenUsingReferenceScript (script : Script) (costs : Costs) :
    Except BuildError Minting :=
  addMintScriptTokenUsingReferenceScript nativeScriptHash script 1 costs

end Minting

/-! ## Submission -/

structure TemporaryWallet where
  address : MainchainAddress
  keyHash : MainchainKeyHash
  deriving DecidableEq

structure MultiSigTransactionData where
  txName : String
  temporaryWallet : TemporaryWallet
  tx : BalancedTransaction
  signedBy : List MainchainKeyHash

inductive MultiSigSmartContractResult where
  | transactionSubmitted (txHash : McTxHash)
  | transactionToSign (data : MultiSigTransactionData)

/-- A wallet is created for a transaction, saved to a file, and the value that the transaction
needs is paid to it. -/
structure TemporaryWallets where
  fund : TransactionContext → BalancedTransaction → Except AnyhowError TemporaryWallet
  forPaymentKey : TemporaryWallet → Except AnyhowError TransactionContext

/-- The orders in which the hash maps of two runs of `calculate_costs` are iterated. -/
structure IterationOrders where
  estimate : IterationOrder × IterationOrder
  final : IterationOrder × IterationOrder

/-- The text of an error is put into another one. Those of the library have no text here. -/
def BuildError.within (text : String → String) : BuildError → BuildError
  | .anyhow error => .anyhow ⟨text error.message⟩
  | error => error

section Submission

variable (client : Client) (wallets : TemporaryWallets) (orders : IterationOrders)
  (governanceData : GovernanceData) (paymentCtx : TransactionContext)
  (makeTx : Costs → TransactionContext → Except BuildError BalancedTransaction)
  (txName : String)

/-- The message of an error ends with the bytes of the transaction, which are left out here. -/
def submitSingleGovernanceKeyTx : Except BuildError McTxHash := do
  let tx ← Costs.calculateCosts (makeTx · paymentCtx) client orders.final.1 orders.final.2
  let txId ← (client.submitTransaction tx).mapError fun e =>
    let message := e.message
    .anyhow ⟨s!"Submit '{txName}' transaction request failed: {message}"⟩
  let _ ← (client.awaitTxOutput txId).mapError .anyhow
  .ok txId

def fundTemporaryWallet : Except BuildError TemporaryWallet := do
  let txToEstimateCosts ← Costs.calculateCosts (makeTx · paymentCtx) client orders.estimate.1
    orders.estimate.2
  (wallets.fund paymentCtx txToEstimateCosts).mapError .anyhow

def createTransactionToSign : Except BuildError MultiSigTransactionData := do
  let temporaryWallet ← (fundTemporaryWallet client wallets orders paymentCtx makeTx).mapError
    (.within fun e => s!"Failed to create temporary wallet for '{txName}': {e}")
  let walletCtx ← (wallets.forPaymentKey temporaryWallet).mapError .anyhow
  let tempWalletCtx := { walletCtx with changeAddress := paymentCtx.changeAddress }
  let tx ← (Costs.calculateCosts (makeTx · tempWalletCtx) client orders.final.1
    orders.final.2).mapError
      (.within fun e => s!"Failed to create '{txName}' transaction using temporary wallet: {e}")
  let signedByCaller :=
    if governanceData.policy.containsAuthority paymentCtx.paymentKeyHash then
      [paymentCtx.paymentKeyHash]
    else []
  .ok { txName, temporaryWallet, tx, signedBy := signedByCaller ++ [tempWalletCtx.paymentKeyHash] }

def submitOrCreateTxToSign : Except BuildError MultiSigSmartContractResult := do
  if governanceData.policy.isSingleKeyPolicyFor paymentCtx.paymentKeyHash then
    let txHash ← submitSingleGovernanceKeyTx client orders paymentCtx makeTx txName
    .ok (.transactionSubmitted txHash)
  else
    let data ← createTransactionToSign client wallets orders governanceData paymentCtx makeTx txName
    .ok (.transactionToSign data)

end Submission

end PartnerChains.SmartContracts
