import PartnerChains.Algorithm.GovernedMapTransactions

/-!
# The governed map as outputs on the chain

What the map holds is told by the outputs at its validator. A transaction that the ledger accepts
replaces the outputs that it spends by those that it creates, and changes the supply of tokens by
what it mints.
-/

namespace PartnerChains.SmartContracts.MapOutputs

/-! ## Entries -/

section Entries

variable (fromBytes : ByteString → Option PlutusData) (policy : PolicyId)

def holdsToken (utxo : OgmiosUtxo) : Bool :=
  (utxo.value.nativeTokens.lookup policy).isSome

/-- The datum of an output that holds a token of the map. -/
def mapEntry (utxo : OgmiosUtxo) : Option GovernedMapDatum :=
  match ogmiosUtxoToGovernedMapUtxo fromBytes policy utxo with
  | .ok (some (_, datum)) => some datum
  | _ => none

def hasKey (key : String) (utxo : OgmiosUtxo) : Bool :=
  (mapEntry fromBytes policy utxo).any fun datum => datum.key = key

/-- The values of the entries with the key, in the order of the outputs. -/
def valuesOf (key : String) (utxos : List OgmiosUtxo) : List ByteString :=
  utxos.filterMap fun utxo =>
    ((mapEntry fromBytes policy utxo).filter fun datum => datum.key = key).map (·.value)

def EachCarries (key : String) (value : ByteString) (utxos : List OgmiosUtxo) : Prop :=
  ∀ utxo ∈ utxos, ∀ datum ∈ mapEntry fromBytes policy utxo, datum.key = key → datum.value = value

/-- There is an entry with the key, and all such entries have the value. -/
def IsSet (key : String) (value : ByteString) (utxos : List OgmiosUtxo) : Prop :=
  (∃ utxo ∈ utxos, mapEntry fromBytes policy utxo = some ⟨key, value⟩) ∧
    EachCarries fromBytes policy key value utxos

def IsUnset (key : String) (utxos : List OgmiosUtxo) : Prop :=
  ∀ utxo ∈ utxos, ∀ datum ∈ mapEntry fromBytes policy utxo, datum.key ≠ key

def tokenCount (utxos : List OgmiosUtxo) : ℕ :=
  (utxos.map fun utxo => (utxo.getAssetAmount (emptyNameAsset policy)).toNat).sum

def entryCount (utxos : List OgmiosUtxo) : ℕ :=
  utxos.countP fun utxo => (mapEntry fromBytes policy utxo).isSome

/-- Outputs with a token that are no entries, as their datum is not one of the map. -/
def strayCount (utxos : List OgmiosUtxo) : ℕ :=
  utxos.countP fun utxo => holdsToken policy utxo && (mapEntry fromBytes policy utxo).isNone

end Entries

/-! ## Transactions -/

/-- An output of a transaction, as it is queried later. -/
structure Created (toBytes : PlutusData → ByteString) (output : TransactionOutput)
    (utxo : OgmiosUtxo) : Prop where
  address : utxo.address = output.address
  nativeTokens : utxo.value.nativeTokens = output.multiasset
  datum : utxo.datum = output.plutusData.map toBytes

/-- The outputs at an address before and after a transaction. -/
def Applied (toBytes : PlutusData → ByteString) (address : MainchainAddress)
    (tx : BalancedTransaction) (before after : List OgmiosUtxo) : Prop :=
  ∃ created, List.Forall₂ (Created toBytes)
      (tx.outputs.filter fun output => output.address = address) created ∧
    after = (before.filter fun utxo => utxo.utxoId ∉ tx.inputs) ++ created

/-- The change of the supply. -/
def minted (policy : PolicyId) (tx : BalancedTransaction) : ℤ :=
  ((tx.mint.filter fun minting => minting.policy = policy).map (·.amount)).sum

/-! ## Results -/

section Results

variable (client : Client) (orders : IterationOrders) (ctx : TransactionContext)
  (governance : Except BuildError GovernanceData) (toBytes : PlutusData → ByteString)
  (validator policy : PlutusScript)
  (makeTx : GovernanceData → Costs → TransactionContext → Except BuildError BalancedTransaction)

/-- The transaction that was submitted, or that is to be signed and submitted. -/
def Carries (governanceData : GovernanceData) :
    MultiSigSmartContractResult → BalancedTransaction → Prop
  | .transactionSubmitted txHash, tx =>
      Costs.calculateCosts (makeTx governanceData · ctx) client orders.final.1 orders.final.2 =
        .ok tx ∧ client.submitTransaction tx = .ok txHash
  | .transactionToSign data, tx => data.tx = tx

/-- What follows from the result of an operation, once its transaction is accepted: the outputs at
the validator, and the change of the supply. -/
inductive Outcome (before : List OgmiosUtxo) :
    Option MultiSigSmartContractResult → List OgmiosUtxo → ℤ → Prop
  | skipped : Outcome before none before 0
  | applied (governanceData : GovernanceData) (result : MultiSigSmartContractResult)
      (tx : BalancedTransaction) (after : List OgmiosUtxo)
      (hgovernance : governance = .ok governanceData)
      (hcarries : Carries client orders ctx makeTx governanceData result tx)
      (happlied : Applied toBytes validator.address tx before after) :
      Outcome before (some result) after (minted policy.scriptHash tx)

end Results

/-- Outputs that are no entries with the key are untouched, and every token is accounted for: each
one is in an entry or in an output that was no entry before. -/
structure OthersKept (fromBytes : ByteString → Option PlutusData) (policy : PolicyId)
    (key : String) (before after : List OgmiosUtxo) (supplyChange : ℤ) : Prop where
  others : (after.filter fun utxo => !hasKey fromBytes policy key utxo) =
    before.filter fun utxo => !hasKey fromBytes policy key utxo
  tokens : tokenCount policy after =
    entryCount fromBytes policy after + strayCount fromBytes policy before
  supply : tokenCount policy before + supplyChange = tokenCount policy after

/-! ## Assumptions -/

/-- No output of the payment key is one of those at the validator. -/
def Apart (ctx : TransactionContext) (before : List OgmiosUtxo) : Prop :=
  ∀ payment ∈ ctx.paymentKeyUtxos, ∀ utxo ∈ before, payment.utxoId ≠ utxo.utxoId

/-- What is assumed of the outputs before an operation, and of its payment key, governance and
serialization of datums. -/
structure Assumed (fromBytes : ByteString → Option PlutusData)
    (toBytes : PlutusData → ByteString) (nativeScriptHash : NativeScript → ScriptHash)
    (validator policy : PlutusScript) (wallets : TemporaryWallets) (ctx : TransactionContext)
    (governance : Except BuildError GovernanceData) (key : String) (value : ByteString)
    (before : List OgmiosUtxo) : Prop where
  unique : (before.map (·.utxoId)).Nodup
  oneToken : ∀ utxo ∈ before, holdsToken policy.scriptHash utxo →
    utxo.getAssetAmount (emptyNameAsset policy.scriptHash) = 1
  payment : Apart ctx before
  wallet : ∀ wallet walletCtx, wallets.forPaymentKey wallet = .ok walletCtx →
    Apart walletCtx before
  change : ctx.changeAddress ≠ validator.address
  governance : ∀ governanceData costs minting, governance = .ok governanceData →
    addMintOneScriptTokenUsingReferenceScript nativeScriptHash governanceData.policy.script costs =
      .ok minting → minting.policy ≠ policy.scriptHash
  datum : fromBytes (toBytes (GovernedMapDatum.toPlutusData ⟨key, value⟩)) =
    some (GovernedMapDatum.toPlutusData ⟨key, value⟩)

end PartnerChains.SmartContracts.MapOutputs
