import PartnerChains.Library.KeyedSum
import PartnerChains.Library.Transition
import PartnerChains.Algorithm.BlockProducerMetadata

/-!
# Runs of the block producer metadata pallet

Calls are made by any accounts. A call that fails leaves the state as it was. Between calls,
the rest of the runtime may change balances, but not what is held for this pallet.
-/

namespace PartnerChains.BlockProducerMetadata

variable {Metadata AccountId σ ε : Type} [DecidableEq AccountId]

inductive Event (Metadata AccountId : Type) where
  | accepted (env : Environment) (origin : RawOrigin AccountId) (call : Call Metadata)
  | rejected (env : Environment) (origin : RawOrigin AccountId) (call : Call Metadata)
  | elsewhere

inductive Step (cfg : Config Metadata AccountId σ ε) :
    Runtime Metadata AccountId σ → Event Metadata AccountId → Runtime Metadata AccountId σ → Prop
  | accept {r r' : Runtime Metadata AccountId σ} (env : Environment)
      (origin : RawOrigin AccountId) (call : Call Metadata) :
      dispatch cfg env origin call r = .ok r' → Step cfg r (.accepted env origin call) r'
  | reject {r : Runtime Metadata AccountId σ} {env : Environment}
      {origin : RawOrigin AccountId} {call : Call Metadata} {error : DispatchError ε} :
      dispatch cfg env origin call r = .error error → Step cfg r (.rejected env origin call) r
  | elsewhere {r : Runtime Metadata AccountId σ} {currency : σ} :
      (∀ account, cfg.currency.held currency account = cfg.currency.held r.currency account) →
      Step cfg r .elsewhere { r with currency }

/-- At genesis there is no metadata, and nothing is held for it. -/
def system (cfg : Config Metadata AccountId σ ε) :
    System (Runtime Metadata AccountId σ) (Event Metadata AccountId) where
  Init r := r.storage = ∅ ∧ ∀ account, cfg.currency.held r.currency account = 0
  Step := Step cfg

/-! ## Deposits and owners -/

/-- The deposits that are recorded in the entries of an account. -/
def deposits (storage : Storage Metadata AccountId) (account : AccountId) : ℕ :=
  KeyedSum.total (fun entry => if entry.owner = account then entry.deposit else 0) storage

/-- What is held from an account are the deposits of its entries. -/
def Backed (cfg : Config Metadata AccountId σ ε) (r : Runtime Metadata AccountId σ) : Prop :=
  ∀ account, cfg.currency.held r.currency account = deposits r.storage account

namespace Call

def crossChainPubKey : Call Metadata → CrossChainPublicKey
  | .upsertMetadata _ _ crossChainPubKey _ => crossChainPubKey
  | .deleteMetadata crossChainPubKey _ _ => crossChainPubKey

def signature : Call Metadata → CrossChainSignature
  | .upsertMetadata _ signature _ _ => signature
  | .deleteMetadata _ signature _ => signature

def validBefore : Call Metadata → UInt64
  | .upsertMetadata _ _ _ validBefore => validBefore
  | .deleteMetadata _ _ validBefore => validBefore

/-- The metadata that the call stores, if any. -/
def metadata : Call Metadata → Option Metadata
  | .upsertMetadata metadata _ _ _ => some metadata
  | .deleteMetadata .. => none

/-- The content of the call, when it is made by the given account. -/
def message (cfg : Config Metadata AccountId σ ε) (account : AccountId) (call : Call Metadata) :
    MetadataSignedMessage Metadata AccountId where
  crossChainPubKey := call.crossChainPubKey
  metadata := call.metadata
  genesisUtxo := cfg.genesisUtxo
  validBefore := call.validBefore
  owner := account

end Call

/-- The event is a call for the key, with a signature of the key over the content of the call
that has not expired, by the account that owns the entry before and after. -/
structure ByOwner (cfg : Config Metadata AccountId σ ε) (key : CrossChainKeyHash)
    (before after : Storage Metadata AccountId) (env : Environment) (account : AccountId)
    (call : Call Metadata) : Prop where
  hash_eq : cfg.hash call.crossChainPubKey = key
  unexpired : env.currentTime ≤ call.validBefore
  signed : cfg.verify call.signature call.crossChainPubKey
    (cfg.encode (call.message cfg account)) = true
  owner_before : ∀ entry, before.lookup key = some entry → entry.owner = account
  owner_after : ∀ entry, after.lookup key = some entry → entry.owner = account
  stored : (after.lookup key).map (·.metadata) = call.metadata

end PartnerChains.BlockProducerMetadata
