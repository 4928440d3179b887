import PartnerChains.Algorithm.Upserts
import PartnerChains.Library.Outputs
import PartnerChains.Library.Transition
import PartnerChains.Model.GovernedMapOutputs

/-!
# Upserts on the ledger

Upserts are run at any time, from answers to queries of any age, and their transactions may be
signed and submitted long after that. The ledger takes them in any order, as long as their inputs
are not spent. Others pay to the validator as they like, but have no tokens of the policy, and the
validator lets them spend nothing.
-/

namespace PartnerChains.SmartContracts

open AuthoritySelection MapOutputs

/-- The outputs at the validator. -/
abbrev ValidatorLedger := OutputLedger OgmiosUtxo.utxoId

structure UpsertEnv where
  lib : SerializationLib
  nativeScriptHash : NativeScript → ScriptHash
  fromBytes : ByteString → Option PlutusData
  toBytes : PlutusData → ByteString
  validator : PlutusScript
  policy : PlutusScript

/-- Who runs an upsert, and what was read for it from the chain. -/
structure UpsertCaller where
  client : Client
  wallets : TemporaryWallets
  orders : IterationOrders
  ctx : TransactionContext
  governance : Except BuildError GovernanceData
  validatorUtxos : List OgmiosUtxo

/-- One of the upserts, and what it writes for a given value. -/
structure Upsert (Value : Type) where
  kept : KeptDatum Value
  written : Value → Value
  run : UpsertEnv → UpsertCaller → Value → Except BuildError (Option MultiSigSmartContractResult)

def dParamUpsert : Upsert DParameter where
  kept := dParamKept
  written := id
  run env caller dParameter := upsertDParam env.lib env.nativeScriptHash env.fromBytes env.validator
    env.policy caller.client caller.wallets caller.orders caller.ctx caller.governance dParameter
    caller.validatorUtxos

def permissionedCandidatesUpsert : Upsert (List PermissionedCandidateData) where
  kept := permissionedCandidatesKept
  written := sortCandidates
  run env caller candidates := upsertPermissionedCandidates env.lib env.nativeScriptHash
    env.fromBytes env.validator env.policy caller.client caller.wallets caller.orders caller.ctx
    caller.governance candidates caller.validatorUtxos

inductive UpsertEvent (Value : Type) where
  | inserted (value : Value)
  | updated (value : Value)
  | payment

/-- What the caller has read was so at some time, and what pays for the transaction is not at the
validator. -/
structure UpsertEnv.Informs (env : UpsertEnv) (l : ValidatorLedger) (caller : UpsertCaller) :
    Prop where
  validatorUtxos : ∀ utxo ∈ caller.validatorUtxos, utxo ∈ l.outputs
  payment : Apart caller.ctx l.outputs
  wallet : ∀ wallet walletCtx, caller.wallets.forPaymentKey wallet = .ok walletCtx →
    Apart walletCtx l.outputs
  change : caller.ctx.changeAddress ≠ env.validator.address

namespace Upsert

variable {Value : Type} (upsert : Upsert Value) (env : UpsertEnv)

def current (validatorUtxos : List OgmiosUtxo) : Except AnyhowError (Option (OgmiosUtxo × Value)) :=
  getCurrent upsert.kept env.fromBytes env.policy validatorUtxos

/-- The transaction for what was read. -/
def makeTx (validatorUtxos : List OgmiosUtxo) (value : Value) (governanceData : GovernanceData)
    (costs : Costs) (ctx : TransactionContext) : Except BuildError BalancedTransaction :=
  match upsert.current env validatorUtxos with
  | .ok none => mintTokenTx upsert.kept env.lib env.nativeScriptHash env.validator env.policy
      (upsert.written value) governanceData costs ctx
  | .ok (some (currentUtxo, _)) => updateTokenTx upsert.kept env.lib env.nativeScriptHash
      env.validator env.policy (upsert.written value) currentUtxo governanceData costs ctx
  | .error error => .error (.anyhow error)

def event (validatorUtxos : List OgmiosUtxo) (value : Value) : UpsertEvent Value :=
  match upsert.current env validatorUtxos with
  | .ok none => .inserted value
  | _ => .updated value

inductive Step : ValidatorLedger → UpsertEvent Value → ValidatorLedger → Prop
  | upserted {l l' : ValidatorLedger} (caller : UpsertCaller) (value : Value)
      {governanceData : GovernanceData} {result : MultiSigSmartContractResult}
      {tx : BalancedTransaction} {created : List OgmiosUtxo} (informs : env.Informs l caller)
      (runs : upsert.run env caller value = .ok (some result))
      (governance : caller.governance = .ok governanceData)
      (carries : Carries caller.client caller.orders caller.ctx
        (upsert.makeTx env caller.validatorUtxos value) governanceData result tx)
      (creates : List.Forall₂ (Created env.toBytes)
        (tx.outputs.filter fun output => output.address = env.validator.address) created)
      (applies : l.Applies tx.inputs created l') :
      Step l (upsert.event env caller.validatorUtxos value) l'
  | payment {l l' : ValidatorLedger} {created : List OgmiosUtxo}
      (noToken : ∀ utxo ∈ created, holdsToken env.policy.scriptHash utxo = false)
      (applies : l.Applies [] created l') : Step l .payment l'

def system : System ValidatorLedger (UpsertEvent Value) where
  Init l := l = .empty
  Step := upsert.Step env

end Upsert

namespace UpsertEvent

variable {Value : Type}

def isInserted : UpsertEvent Value → Bool
  | inserted _ => true
  | _ => false

def value? : UpsertEvent Value → Option Value
  | inserted value | updated value => some value
  | payment => none

/-- How often the token was minted. -/
def inserts (trace : List (UpsertEvent Value)) : ℕ := trace.countP isInserted

def lastUpserted (trace : List (UpsertEvent Value)) : Option Value :=
  (trace.filterMap value?).getLast?

end UpsertEvent

end PartnerChains.SmartContracts
