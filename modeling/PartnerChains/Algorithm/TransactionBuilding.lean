import PartnerChains.Algorithm.TokenTransactions

/-!
# Execution costs, and how a transaction is balanced

A builder is told script inputs, regular inputs, outputs and what to mint. The serialization
library then adds inputs of the payment key, change and collateral. A transaction is built three
times: without costs, and then twice with the costs that Ogmios reports for the one before.
-/

namespace PartnerChains

/-- Inputs are sorted by transaction and index. -/
def UtxoId.orderingKey (utxo : UtxoId) : McTxHash ×ₗ UtxoIndex := toLex (utxo.txHash, utxo.index)

namespace SmartContracts

/-! ## Costs -/

structure ExUnits where
  mem : BigNum
  steps : BigNum
  deriving DecidableEq

def zeroExUnits : ExUnits := ⟨0, 0⟩

/-- The costs of spent outputs are found by the position of the input. Each map has its entries
in the order in which it is iterated. -/
inductive Costs where
  | zeroCosts
  | costs (mints : AList fun _ : ScriptHash => ExUnits) (spends : AList fun _ : ℕ => ExUnits)

def expect {α : Type} (message : String) : Option α → Except Panic α
  | some value => .ok value
  | none => .error ⟨message⟩

namespace Costs

def getMint (script : PlutusScript) : Costs → Except Panic ExUnits
  | zeroCosts => .ok zeroExUnits
  | costs mints _ => expect "get_mint should not be called with an unknown script"
      (mints.lookup script.scriptHash)

def getSpend (spendIx : ℕ) : Costs → Except Panic ExUnits
  | zeroCosts => .ok zeroExUnits
  | costs _ spends => expect "get_spend should not be called with an unknown spend index"
      (spends.lookup spendIx)

def getOneSpend : Costs → Except Panic ExUnits
  | zeroCosts => .ok zeroExUnits
  | costs _ spends =>
      match spends.entries with
      | [spend] => .ok spend.2
      | _ => .error
          ⟨"get_one_spend should only be called when exactly one spend is expected to be present"⟩

def getSpendIndices : Costs → List ℕ
  | zeroCosts => []
  | costs _ spends => spends.keys

end Costs

/-! ## Builders -/

structure ScriptInput where
  utxo : OgmiosUtxo
  script : ScriptHash
  data : PlutusData
  exUnits : ExUnits

/-- Native scripts have no redeemer. -/
structure Minting where
  policy : PolicyId
  amount : ℤ
  redeemer : Option (PlutusData × ExUnits)

structure TransactionBuilder where
  scriptInputs : List ScriptInput := []
  regularInputs : List OgmiosUtxo := []
  outputs : List TransactionOutput := []
  mint : List Minting := []

def unitPlutusData : PlutusData := .constr 0 []

def addScriptUtxoInput (utxo : OgmiosUtxo) (script : PlutusScript) (data : PlutusData)
    (exUnits : ExUnits) : Except BuildError ScriptInput := do
  let utxo ← scriptInput utxo
  .ok ⟨utxo, script.scriptHash, data, exUnits⟩

/-! ## Transactions -/

structure Redeemer where
  /-- The position of the input. -/
  index : ℕ
  data : PlutusData
  exUnits : ExUnits

structure BalancedTransaction where
  inputs : List UtxoId
  redeemers : List Redeemer
  outputs : List TransactionOutput
  mint : List Minting

def sortInputs (inputs : List UtxoId) : List UtxoId :=
  inputs.dedup.insertionSort fun a b => a.orderingKey ≤ b.orderingKey

namespace TransactionBuilder

def scriptIds (builder : TransactionBuilder) : List UtxoId :=
  builder.scriptInputs.map (·.utxo.utxoId)

/-- What is built when inputs of the payment key and change are added: the library sorts the
inputs, and gives each redeemer the position of its input. -/
def build (builder : TransactionBuilder) (added : List OgmiosUtxo)
    (change : List TransactionOutput) : BalancedTransaction :=
  let inputs := sortInputs (builder.scriptIds ++ builder.regularInputs.map (·.utxoId) ++
    added.map (·.utxoId))
  { inputs
    redeemers := builder.scriptInputs.map fun input =>
      ⟨inputs.idxOf input.utxo.utxoId, input.data, input.exUnits⟩
    outputs := builder.outputs ++ change
    mint := builder.mint.insertionSort fun a b => a.policy ≤ b.policy }

end TransactionBuilder

structure TransactionContext where
  paymentKeyHash : MainchainKeyHash
  paymentKeyUtxos : List OgmiosUtxo
  maxCollateralInputs : ℕ
  changeAddress : MainchainAddress

/-- The library may fail. Otherwise it builds what it is told, with inputs of the payment key and
with change. -/
structure SerializationLib where
  tryBalance : TransactionBuilder → TransactionContext → List OgmiosUtxo →
    Except String BalancedTransaction
  builds : ∀ builder ctx collateral tx, tryBalance builder ctx collateral = .ok tx →
    ∃ added change, added ⊆ ctx.paymentKeyUtxos ∧
      (∀ output ∈ change, output.address = ctx.changeAddress) ∧ tx = builder.build added change

/-- The library adds up the tokens of the inputs, and fails when a sum does not fit. -/
def SerializationLib.ChecksSums (lib : SerializationLib) : Prop :=
  ∀ builder ctx collateral tx, lib.tryBalance builder ctx collateral = .ok tx →
    ∀ policyId assetName, (builder.scriptInputs.map fun input =>
      (input.utxo.value.nativeTokens.getAsset policyId assetName).toNat).sum < 2 ^ 64

def maxPossibleCollaterals (ctx : TransactionContext) : List OgmiosUtxo :=
  (ctx.paymentKeyUtxos.insertionSort fun a b => b.value.lovelace ≤ a.value.lovelace).take
    ctx.maxCollateralInputs

/-- Collateral inputs are added one by one, until the transaction is balanced. -/
def balanceWith (lib : SerializationLib) (builder : TransactionBuilder)
    (ctx : TransactionContext) : List OgmiosUtxo → List OgmiosUtxo →
      Except String BalancedTransaction
  | selected, [] => lib.tryBalance builder ctx selected
  | selected, input :: inputs =>
      match lib.tryBalance builder ctx selected with
      | .ok tx => .ok tx
      | .error _ => balanceWith lib builder ctx (selected ++ [input]) inputs

def couldNotBalance (cause : String) : BuildError :=
  .anyhow
    ⟨"Could not balance transaction. Usually it means that the payment key does not own UTXO " ++
      "set required to cover transaction outputs and fees or to provide collateral. " ++
      s!"Cause: {cause}"⟩

def balanceUpdateAndBuild (lib : SerializationLib) (builder : TransactionBuilder)
    (ctx : TransactionContext) : Except BuildError BalancedTransaction :=
  (balanceWith lib builder ctx [] (maxPossibleCollaterals ctx)).mapError couldNotBalance

/-! ## Evaluation -/

structure OgmiosEvaluateTransactionResponse where
  purpose : String
  index : ℕ
  memory : UInt64
  cpu : UInt64
  deriving DecidableEq

def exUnitsFromResponse (response : OgmiosEvaluateTransactionResponse) : ExUnits :=
  ⟨response.memory, response.cpu⟩

structure Client where
  evaluateTransaction : BalancedTransaction →
    Except AnyhowError (List OgmiosEvaluateTransactionResponse)
  submitTransaction : BalancedTransaction → Except AnyhowError McTxHash
  awaitTxOutput : McTxHash → Except AnyhowError Unit

/-- A hash map has its entries in no particular order. -/
structure IterationOrder where
  arrange : (AList fun _ : ℕ => ExUnits) → AList fun _ : ℕ => ExUnits
  perm : ∀ spends, (arrange spends).entries.Perm spends.entries

namespace Costs

/-- The maps that an evaluation fills. -/
abbrev Maps := (AList fun _ : ScriptHash => ExUnits) × AList fun _ : ℕ => ExUnits

def insertResponse (tx : BalancedTransaction) (maps : Maps)
    (er : OgmiosEvaluateTransactionResponse) : Except Panic Maps :=
  match er.purpose with
  | "mint" =>
      if tx.mint.isEmpty then
        .error ⟨"tx.body.mint() should not be empty if we received a 'mint' response from Ogmios"⟩
      else
        match tx.mint[er.index]? with
        | some minting => .ok (maps.1.insert minting.policy (exUnitsFromResponse er), maps.2)
        | none =>
            let len := tx.mint.length
            let index := er.index
            .error ⟨s!"index out of bounds: the len is {len} but the index is {index}"⟩
  | "spend" => .ok (maps.1, maps.2.insert er.index (exUnitsFromResponse er))
  | _ => .ok maps

def fromOgmios (client : Client) (order : IterationOrder) (tx : BalancedTransaction) :
    Except BuildError Costs := do
  let evaluateResponse ← (client.evaluateTransaction tx).mapError .anyhow
  let maps ← (evaluateResponse.foldlM (insertResponse tx) (∅, ∅)).mapError .panic
  .ok (.costs maps.1 (order.arrange maps.2))

/-- The two evaluations fill different maps, each with its own order. -/
def calculateCosts (makeTx : Costs → Except BuildError BalancedTransaction) (client : Client)
    (first second : IterationOrder) : Except BuildError BalancedTransaction := do
  let tx ← makeTx .zeroCosts
  let costs ← fromOgmios client first tx
  let tx ← makeTx costs
  let costs ← fromOgmios client second tx
  makeTx costs

end Costs

end SmartContracts

end PartnerChains
