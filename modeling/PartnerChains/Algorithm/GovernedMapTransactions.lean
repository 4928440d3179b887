import PartnerChains.Algorithm.Multisig

/-!
# Operations on the governed map

An entry of the map is an output at the validator that holds a token of the map, with a datum of
key and value. Nothing prevents two entries with the same key. What an operation does is decided
on the first entry with the key, and its transaction spends all of them.
-/

namespace PartnerChains

def GovernedMapDatum.toPlutusData (datum : GovernedMapDatum) : PlutusData :=
  .list [.bytes datum.key.toUTF8.data.toList, .bytes datum.value]

namespace SmartContracts

/-! ## Transactions -/

/-- The `ix`-th entry is spent with the cost that is the `ix`-th one in the hash map. -/
def keyInputs (validator : PlutusScript) (data : PlutusData) (utxosForKey : List OgmiosUtxo)
    (costs : Costs) : Except BuildError (List ScriptInput) :=
  let spendIndices := costs.getSpendIndices
  utxosForKey.zipIdx.mapM fun (utxo, ix) => do
    let exUnits ← (costs.getSpend (spendIndices[ix]?.getD 0)).mapError .panic
    addScriptUtxoInput utxo validator data exUnits

/-- Arithmetic with 32 bits, as in a build that does not check for overflow. -/
def burnAmount (kept : Int32) (utxosForKey : List OgmiosUtxo) : ℤ :=
  (-(Int32.ofNat utxosForKey.length - kept)).toInt

def burnOthers (policy : PlutusScript) (utxosForKey : List OgmiosUtxo) (costs : Costs) :
    Except BuildError (List Minting) :=
  if utxosForKey.length > 1 then do
    let exUnits ← (costs.getMint policy).mapError .panic
    .ok [addMintScriptTokens policy unitPlutusData exUnits (burnAmount 1 utxosForKey)]
  else .ok []

section Transactions

variable (lib : SerializationLib) (nativeScriptHash : NativeScript → ScriptHash)
  (validator policy : PlutusScript)

def insertKeyValueTx (key : String) (value : ByteString) (governanceData : GovernanceData)
    (costs : Costs) (ctx : TransactionContext) : Except BuildError BalancedTransaction := do
  let exUnits ← (costs.getMint policy).mapError .panic
  let mint := addMintOneScriptToken policy unitPlutusData exUnits
  let output := outputWithOneScriptToken validator policy
    (GovernedMapDatum.toPlutusData ⟨key, value⟩)
  let governanceMint ← addMintOneScriptTokenUsingReferenceScript nativeScriptHash
    governanceData.policy.script costs
  balanceUpdateAndBuild lib { outputs := [output], mint := [mint, governanceMint] } ctx

def updateKeyValueTx (key : String) (value : ByteString) (utxosForKey : List OgmiosUtxo)
    (governanceData : GovernanceData) (costs : Costs) (ctx : TransactionContext) :
    Except BuildError BalancedTransaction := do
  let governanceMint ← addMintOneScriptTokenUsingReferenceScript nativeScriptHash
    governanceData.policy.script costs
  let inputs ← keyInputs validator (.bytes []) utxosForKey costs
  let burn ← burnOthers policy utxosForKey costs
  let output := outputWithOneScriptToken validator policy
    (GovernedMapDatum.toPlutusData ⟨key, value⟩)
  balanceUpdateAndBuild lib
    { scriptInputs := inputs, outputs := [output], mint := governanceMint :: burn } ctx

def removeKeyValueTx (utxosForKey : List OgmiosUtxo) (governanceData : GovernanceData)
    (costs : Costs) (ctx : TransactionContext) : Except BuildError BalancedTransaction := do
  let governanceMint ← addMintOneScriptTokenUsingReferenceScript nativeScriptHash
    governanceData.policy.script costs
  let inputs ← keyInputs validator unitPlutusData utxosForKey costs
  let exUnits ← (costs.getMint policy).mapError .panic
  let burn := addMintScriptTokens policy unitPlutusData exUnits (burnAmount 0 utxosForKey)
  balanceUpdateAndBuild lib { scriptInputs := inputs, mint := [governanceMint, burn] } ctx

/-! ## Operations -/

variable (client : Client) (wallets : TemporaryWallets) (orders : IterationOrders)
  (fromBytes : ByteString → Option PlutusData) (ctx : TransactionContext)
  (governance : Except BuildError GovernanceData)

/-- The governance is read from the chain, and the transaction is made under it. -/
def governedTx (txName : String)
    (makeTx : GovernanceData → Costs → TransactionContext →
      Except BuildError BalancedTransaction) :
    Except BuildError (Option MultiSigSmartContractResult) := do
  let governanceData ← governance
  let result ← submitOrCreateTxToSign client wallets orders governanceData ctx
    (makeTx governanceData) txName
  .ok (some result)

def awaitResult : Option MultiSigSmartContractResult →
    Except BuildError (Option MultiSigSmartContractResult)
  | some (.transactionSubmitted txHash) => do
      let _ ← (client.awaitTxOutput txHash).mapError .anyhow
      .ok (some (.transactionSubmitted txHash))
  | result => .ok result

def insert (key : String) (value : ByteString) :
    Except BuildError (Option MultiSigSmartContractResult) :=
  governedTx client wallets orders ctx governance "Insert Key-Value pair" fun governanceData =>
    insertKeyValueTx lib nativeScriptHash validator policy key value governanceData

def update (key : String) (value : ByteString) (utxosForKey : List OgmiosUtxo) :
    Except BuildError (Option MultiSigSmartContractResult) :=
  governedTx client wallets orders ctx governance "Update Key-Value pair" fun governanceData =>
    updateKeyValueTx lib nativeScriptHash validator policy key value utxosForKey governanceData

def remove (utxosForKey : List OgmiosUtxo) :
    Except BuildError (Option MultiSigSmartContractResult) :=
  governedTx client wallets orders ctx governance "Remove Key-Value pair" fun governanceData =>
    removeKeyValueTx lib nativeScriptHash validator policy utxosForKey governanceData

def runInsert (key : String) (value : ByteString) (validatorUtxos : List OgmiosUtxo) :
    Except BuildError (Option MultiSigSmartContractResult) := do
  match ← (getCurrentValue fromBytes validatorUtxos key policy.scriptHash).mapError .panic with
  | some currentValue =>
      if currentValue ≠ value then
        .error (.anyhow ⟨s!"There is already a value stored for key '{key}'."⟩)
      else .ok none
  | none => do
      let result ← insert lib nativeScriptHash validator policy client wallets orders ctx governance
        key value
      awaitResult client result

def runUpdate (key : String) (value : ByteString) (expectedCurrentValue : Option ByteString)
    (validatorUtxos : List OgmiosUtxo) :
    Except BuildError (Option MultiSigSmartContractResult) := do
  let utxosForKey ←
    (getUtxosForKey fromBytes validatorUtxos key policy.scriptHash).mapError .panic
  match ← (getCurrentValue fromBytes validatorUtxos key policy.scriptHash).mapError .panic with
  | none => .error (.anyhow ⟨s!"Cannot update nonexistent key :'{key}'."⟩)
  | some actualCurrentValue =>
      if expectedCurrentValue.any fun expected => expected ≠ actualCurrentValue then
        .error (.anyhow ⟨s!"Value for key '{key}' is set to a different value than expected."⟩)
      else if actualCurrentValue ≠ value then do
        let result ← update lib nativeScriptHash validator policy client wallets orders ctx
          governance key value utxosForKey
        awaitResult client result
      else .ok none

def runRemove (key : String) (validatorUtxos : List OgmiosUtxo) :
    Except BuildError (Option MultiSigSmartContractResult) := do
  let utxosForKey ←
    (getUtxosForKey fromBytes validatorUtxos key policy.scriptHash).mapError .panic
  if utxosForKey.length = 0 then .ok none
  else do
    let result ← remove lib nativeScriptHash validator policy client wallets orders ctx governance
      utxosForKey
    awaitResult client result

end Transactions

end SmartContracts

end PartnerChains
