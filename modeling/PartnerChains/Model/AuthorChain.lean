import PartnerChains.Library.Transition
import PartnerChains.Algorithm.Authors

/-!
# Runs of the pallets that decide on block authors

A run starts with the genesis build. Each block is initialized and then dispatches calls of
the committee pallet. The committees that are stored are not empty.
-/

namespace PartnerChains.Authors

variable {Member AccountId AuraId GrandpaId Inputs σ ςA ςG : Type} {maxValidators : ℕ}
  [LinearOrder AccountId]

structure Chain (Member AccountId AuraId GrandpaId σ ςA ςG : Type) (maxValidators : ℕ) where
  number : ℕ
  currentEpochNumber : ScEpochNumber
  runtime : Runtime Member AccountId AuraId GrandpaId σ ςA ςG maxValidators

inductive Event (Member : Type) (maxValidators : ℕ) where
  | initialized
  | accepted (call : Committee.Call Member maxValidators)
  | rejected (call : Committee.Call Member maxValidators)

/-- The call does not store an empty committee. -/
def NotEmpty : Committee.Call Member maxValidators → Prop
  | .set validators _ _ => validators.toList ≠ []
  | .setMainChainScripts .. => True

inductive Step (cfg : Config Member AccountId AuraId GrandpaId Inputs σ ςA ςG maxValidators) :
    Chain Member AccountId AuraId GrandpaId σ ςA ςG maxValidators → Event Member maxValidators →
      Chain Member AccountId AuraId GrandpaId σ ςA ςG maxValidators → Prop
  | initBlock {chain : Chain Member AccountId AuraId GrandpaId σ ςA ςG maxValidators}
      (epoch : ScEpochNumber)
      {runtime : Runtime Member AccountId AuraId GrandpaId σ ςA ςG maxValidators} :
      chain.currentEpochNumber ≤ epoch →
      initializeBlock cfg (chain.number + 1) epoch chain.runtime = .ok runtime →
      Step cfg chain .initialized ⟨chain.number + 1, epoch, runtime⟩
  | accept {chain : Chain Member AccountId AuraId GrandpaId σ ςA ςG maxValidators}
      {origin : Origin} {call : Committee.Call Member maxValidators}
      {management : Committee.Storage Member maxValidators} :
      NotEmpty call →
      Committee.dispatch cfg.committee origin call chain.runtime.manager.management =
        .ok management →
      Step cfg chain (.accepted call)
        { chain with runtime := { chain.runtime with
          manager := { chain.runtime.manager with management } } }
  | reject {chain : Chain Member AccountId AuraId GrandpaId σ ςA ςG maxValidators}
      {origin : Origin} {call : Committee.Call Member maxValidators}
      {error : Committee.DispatchError} :
      Committee.dispatch cfg.committee origin call chain.runtime.manager.management =
        .error error →
      Step cfg chain (.rejected call) chain

variable (cfg : Config Member AccountId AuraId GrandpaId Inputs σ ςA ςG maxValidators)

/-- The session pallet is built on the storage that the committee pallet has built. -/
def system (genesis : Committee.GenesisConfig Member) :
    System (Chain Member AccountId AuraId GrandpaId σ ςA ςG maxValidators)
      (Event Member maxValidators) where
  Init chain := chain.number = 0 ∧ chain.currentEpochNumber = 0 ∧
    ∃ initialValidators before, before.manager.management = genesis.build maxValidators ∧
      Session.build (sessionConfig cfg) initialValidators before = .ok chain.runtime
  Step := Step cfg

/-! ## Agreement -/

/-- The Aura keys of the current committee, in the order of the seats. -/
def committeeKeys (s : Committee.Storage Member maxValidators) : List AuraId :=
  s.currentCommittee.committee.toList.map fun member => (cfg.committee.authorityKeys member).aura

/-- Aura has the keys of the committee, and the author that is asked for on top of a state is
the member whose key Aura expects for the slot. -/
structure AuthorAgreement (usizeBits : ℕ)
    (r : Runtime Member AccountId AuraId GrandpaId σ ςA ςG maxValidators) (slot : UInt64) :
    Prop where
  authorities : cfg.aura.authorities r.handler.1 = committeeKeys cfg r.manager.management
  author : (getAuthor usizeBits r.manager.management slot).map
      (fun member => (cfg.committee.authorityKeys member).aura) =
    slotAuthor (cfg.aura.authorities r.handler.1) slot

/-- The slot and its low bits point to seats with the same key. -/
def SameSeatKey (usizeBits : ℕ) (s : Committee.Storage Member maxValidators) (slot : UInt64) :
    Prop :=
  let keys := committeeKeys cfg s
  keys[slot.toNat % 2 ^ usizeBits % keys.length]? = keys[slot.toNat % keys.length]?

end PartnerChains.Authors
