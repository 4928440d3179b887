import PartnerChains.Algorithm.Domain

/-!
# The block producer metadata pallet

Metadata of a block producer is stored with the account that owns it and the deposit that is
held for it. Changes are signed with the cross-chain key of the producer.
-/

namespace PartnerChains.BlockProducerMetadata

abbrev CrossChainPublicKey := ByteString
abbrev CrossChainSignature := ByteString
abbrev CrossChainKeyHash := Bytes 28

/-! ## Configuration -/

/-- The currency, with what it holds for the deposits of this pallet. A release returns less
than was asked for only when less is held. -/
structure Currency (AccountId σ ε : Type) [DecidableEq AccountId] where
  held : σ → AccountId → ℕ
  hold : AccountId → ℕ → σ → Except ε σ
  release : AccountId → ℕ → σ → Except ε (ℕ × σ)
  held_hold : ∀ account amount s s', hold account amount s = .ok s' → ∀ other,
    held s' other = held s other + if other = account then amount else 0
  held_release : ∀ account amount s released s', release account amount s = .ok (released, s') →
    ∀ other, held s' other = held s other - if other = account then amount else 0

/-- A deletion is signed as a message without metadata. -/
structure MetadataSignedMessage (Metadata AccountId : Type) where
  crossChainPubKey : CrossChainPublicKey
  metadata : Option Metadata
  genesisUtxo : UtxoId
  validBefore : UInt64
  owner : AccountId

structure Config (Metadata AccountId σ ε : Type) [DecidableEq AccountId] where
  genesisUtxo : UtxoId
  hash : CrossChainPublicKey → CrossChainKeyHash
  verify : CrossChainSignature → CrossChainPublicKey → ByteString → Bool
  encode : MetadataSignedMessage Metadata AccountId → ByteString
  currency : Currency AccountId σ ε

/-- What a call reads from the runtime besides storage: the time in seconds, and the amount to
hold, which an upgrade of the runtime may change. -/
structure Environment where
  currentTime : UInt64
  holdAmount : ℕ

/-! ## State and calls -/

structure Entry (Metadata AccountId : Type) where
  metadata : Metadata
  owner : AccountId
  deposit : ℕ
  deriving DecidableEq

abbrev Storage (Metadata AccountId : Type) :=
  AList fun _ : CrossChainKeyHash => Entry Metadata AccountId

structure Runtime (Metadata AccountId σ : Type) where
  currency : σ
  storage : Storage Metadata AccountId

inductive RawOrigin (AccountId : Type) where
  | root
  | signed (account : AccountId)
  | none

inductive Call (Metadata : Type) where
  | upsertMetadata (metadata : Metadata) (signature : CrossChainSignature)
      (crossChainPubKey : CrossChainPublicKey) (validBefore : UInt64)
  | deleteMetadata (crossChainPubKey : CrossChainPublicKey) (signature : CrossChainSignature)
      (validBefore : UInt64)

inductive DispatchError (ε : Type) where
  | badOrigin
  | invalidMainchainSignature
  | insufficientBalance
  | notTheOwner
  | pastValidityTime
  | currency (error : ε)

/-! ## Dispatch -/

variable {Metadata AccountId σ ε : Type} [DecidableEq AccountId]

def ensureSigned : RawOrigin AccountId → Except (DispatchError ε) AccountId
  | .signed account => .ok account
  | .root | .none => .error .badOrigin

section Pallet

variable (cfg : Config Metadata AccountId σ ε) (env : Environment)

/-- The validity time is checked before the signature. -/
def ensureValid (signature : CrossChainSignature)
    (message : MetadataSignedMessage Metadata AccountId) : Except (DispatchError ε) Unit :=
  let isValidSignature := cfg.verify signature message.crossChainPubKey (cfg.encode message)
  if message.validBefore < env.currentTime then .error .pastValidityTime
  else if isValidSignature = false then .error .invalidMainchainSignature
  else .ok ()

def holdDeposit (account : AccountId) (s : σ) : Except (DispatchError ε) (ℕ × σ) :=
  match cfg.currency.hold account env.holdAmount s with
  | .ok s => .ok (env.holdAmount, s)
  | .error _ => .error .insufficientBalance

def releaseDeposit (depositor : AccountId) (amount : ℕ) (s : σ) : Except (DispatchError ε) σ :=
  match cfg.currency.release depositor amount s with
  | .ok (_, s) => .ok s
  | .error error => .error (.currency error)

/-- The first upsert holds a deposit, later ones keep it. -/
def storeMetadata (account : AccountId) (metadata : Metadata) (keyHash : CrossChainKeyHash)
    (r : Runtime Metadata AccountId σ) :
    Except (DispatchError ε) (Runtime Metadata AccountId σ) :=
  match r.storage.lookup keyHash with
  | none => do
      let (deposit, currency) ← holdDeposit cfg env account r.currency
      .ok ⟨currency, r.storage.insert keyHash ⟨metadata, account, deposit⟩⟩
  | some entry =>
      if entry.owner = account then
        .ok { r with storage := r.storage.insert keyHash { entry with metadata } }
      else .error .notTheOwner

/-- Nothing is done when there is no entry. -/
def removeMetadata (account : AccountId) (keyHash : CrossChainKeyHash)
    (r : Runtime Metadata AccountId σ) :
    Except (DispatchError ε) (Runtime Metadata AccountId σ) :=
  match r.storage.lookup keyHash with
  | none => .ok r
  | some entry =>
      if entry.owner = account then do
        let currency ← releaseDeposit cfg entry.owner entry.deposit r.currency
        .ok ⟨currency, r.storage.erase keyHash⟩
      else .error .notTheOwner

def upsertMetadata (origin : RawOrigin AccountId) (metadata : Metadata)
    (signature : CrossChainSignature) (crossChainPubKey : CrossChainPublicKey)
    (validBefore : UInt64) (r : Runtime Metadata AccountId σ) :
    Except (DispatchError ε) (Runtime Metadata AccountId σ) := do
  let originAccount ← ensureSigned origin
  ensureValid cfg env signature
    { crossChainPubKey, metadata := some metadata, genesisUtxo := cfg.genesisUtxo, validBefore,
      owner := originAccount }
  storeMetadata cfg env originAccount metadata (cfg.hash crossChainPubKey) r

def deleteMetadata (origin : RawOrigin AccountId) (crossChainPubKey : CrossChainPublicKey)
    (signature : CrossChainSignature) (validBefore : UInt64)
    (r : Runtime Metadata AccountId σ) :
    Except (DispatchError ε) (Runtime Metadata AccountId σ) := do
  let originAccount ← ensureSigned origin
  ensureValid cfg env signature
    { crossChainPubKey, metadata := none, genesisUtxo := cfg.genesisUtxo, validBefore,
      owner := originAccount }
  removeMetadata cfg originAccount (cfg.hash crossChainPubKey) r

def dispatch (origin : RawOrigin AccountId) (call : Call Metadata)
    (r : Runtime Metadata AccountId σ) :
    Except (DispatchError ε) (Runtime Metadata AccountId σ) :=
  match call with
  | .upsertMetadata metadata signature crossChainPubKey validBefore =>
      upsertMetadata cfg env origin metadata signature crossChainPubKey validBefore r
  | .deleteMetadata crossChainPubKey signature validBefore =>
      deleteMetadata cfg env origin crossChainPubKey signature validBefore r

end Pallet

end PartnerChains.BlockProducerMetadata
