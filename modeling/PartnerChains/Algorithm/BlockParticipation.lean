import PartnerChains.Library.StableOrder
import PartnerChains.Algorithm.CandidatesCache

/-!
# The inherent data provider of block participation

Logged blocks are counted by Cardano epoch and producer, and the stake of each producer's pool in
that epoch is added. Counts are kept in hash maps, which are iterated in any order.
-/

namespace PartnerChains.BlockParticipation

open AuthoritySelection (timestampToMainchainEpoch EpochDerivationError)
open BlockSource (MainchainEpochConfig)

abbrev Slot := ℕ

/-! ## Released data -/

structure DelegatorBlockParticipationData (DelegatorId : Type) where
  id : DelegatorId
  share : ℕ
  deriving DecidableEq

structure BlockProducerParticipationData (BlockProducerId DelegatorId : Type) where
  blockProducer : BlockProducerId
  blockCount : ℕ
  delegatorTotalShares : ℕ
  delegators : List (DelegatorBlockParticipationData DelegatorId)
  deriving DecidableEq

structure BlockProductionData (BlockProducerId DelegatorId : Type) where
  upToSlot : Slot
  producerParticipation : List (BlockProducerParticipationData BlockProducerId DelegatorId)
  deriving DecidableEq

section Order

variable {BlockProducerId DelegatorId : Type} [LinearOrder BlockProducerId]
  [LinearOrder DelegatorId]

/-- Fields are compared in the order of their declaration. -/
def DelegatorBlockParticipationData.rank
    (data : DelegatorBlockParticipationData DelegatorId) : Lex (DelegatorId × ℕ) :=
  toLex (data.id, data.share)

def BlockProducerParticipationData.rank
    (data : BlockProducerParticipationData BlockProducerId DelegatorId) :
    Lex (BlockProducerId × Lex (ℕ × Lex (ℕ × List (Lex (DelegatorId × ℕ))))) :=
  toLex (data.blockProducer, toLex (data.blockCount, toLex (data.delegatorTotalShares,
    data.delegators.map DelegatorBlockParticipationData.rank)))

def BlockProducerParticipationData.sortDelegators
    (data : BlockProducerParticipationData BlockProducerId DelegatorId) :
    BlockProducerParticipationData BlockProducerId DelegatorId :=
  { data with
    delegators := StableOrder.sortByKey DelegatorBlockParticipationData.rank data.delegators }

def BlockProductionData.new (upToSlot : Slot)
    (producerParticipation : List (BlockProducerParticipationData BlockProducerId DelegatorId)) :
    BlockProductionData BlockProducerId DelegatorId where
  upToSlot
  producerParticipation := StableOrder.sortByKey BlockProducerParticipationData.rank
    (producerParticipation.map BlockProducerParticipationData.sortDelegators)

end Order

/-! ## The provider -/

inductive InherentDataCreationError (ε BlockProducer : Type) where
  | panic (panic : Panic)
  | dataSourceError (error : ε)
  | dataMissing (epoch : McEpochNumber) (producer : BlockProducer)
  | mcEpochBelowOffset (epoch : McEpochNumber) (offset : ℕ)
  deriving DecidableEq

/-- The data source gives the stake of pools in an epoch. -/
abbrev BlockParticipationDataSource (ε : Type) :=
  McEpochNumber → List MainchainKeyHash → Except ε StakeDistribution

/-- What the runtime answers at the parent block. -/
structure Api (BlockProducer : Type) where
  shouldReleaseData : Slot → Option Slot
  blocksProducedUpToSlot : Slot → List (Slot × BlockProducer)
  targetInherentId : Bytes 8

structure Config (BlockProducer Delegator : Type) where
  overflowChecks : Bool
  mcEpochConfig : MainchainEpochConfig
  /-- Milliseconds. -/
  slotDuration : UInt64
  asCardanoSpo : BlockProducer → Option MainchainKeyHash
  fromDelegatorKey : DelegatorKey → Delegator

inductive BlockParticipationInherentDataProvider (BlockProducer Delegator : Type) where
  | active (targetInherentId : Bytes 8)
      (blockProductionData : BlockProductionData BlockProducer Delegator)
  | inert
  deriving DecidableEq

variable {BlockProducer Delegator ε : Type} [LinearOrder BlockProducer] [LinearOrder Delegator]

/-- The number of blocks of each producer, and this for each epoch. -/
abbrev ProducerCounts (BlockProducer : Type) [LinearOrder BlockProducer] :=
  OrderedMap BlockProducer ℕ

abbrev EpochCounts (BlockProducer : Type) [LinearOrder BlockProducer] :=
  OrderedMap McEpochNumber (ProducerCounts BlockProducer)

/-- The order in which the entries of the hash maps are visited. -/
structure IterationOrder (BlockProducer : Type) [LinearOrder BlockProducer] where
  epochs : EpochCounts BlockProducer → List (McEpochNumber × ProducerCounts BlockProducer)
  producers : McEpochNumber → ProducerCounts BlockProducer → List (BlockProducer × ℕ)
  epochs_perm : ∀ counts, (epochs counts).Perm counts.entries
  producers_perm : ∀ epoch counts, (producers epoch counts).Perm counts.entries

/-- All hash maps are visited in the order of their keys. -/
def IterationOrder.ascending : IterationOrder BlockProducer where
  epochs counts := counts.entries
  producers _ counts := counts.entries
  epochs_perm _ := .refl _
  producers_perm _ _ := .refl _

section Provider

variable (cfg : Config BlockProducer Delegator)

def dataMcEpochForSlot (slot : Slot) :
    Except (InherentDataCreationError ε BlockProducer) McEpochNumber :=
  let timestamp := slot * cfg.slotDuration.toNat
  if timestamp < 2 ^ 64 then
    match timestampToMainchainEpoch cfg.mcEpochConfig timestamp with
    | .error _ => .error (.panic ⟨"Mainchain epoch for past slots exists"⟩)
    | .ok mcEpoch =>
        (Candidates.offsetDataEpoch mcEpoch).mapError fun offset =>
          .mcEpochBelowOffset mcEpoch offset
  else .error (.panic ⟨"Timestamp for past slots can not overflow"⟩)

def countBlock (counts : EpochCounts BlockProducer) (block : Slot × BlockProducer) :
    Except (InherentDataCreationError ε BlockProducer) (EpochCounts BlockProducer) := do
  let mcEpoch ← dataMcEpochForSlot cfg block.1
  let producers := (counts.get? mcEpoch).getD .empty
  let producerBlockCount := (producers.get? block.2).getD 0
  let producerBlockCount ←
    (Checked.addWith cfg.overflowChecks 32 producerBlockCount 1).mapError .panic
  .ok (counts.insert mcEpoch (producers.insert block.2 producerBlockCount))

def countBlocksByEpochAndProducer (slotProducers : List (Slot × BlockProducer)) :
    Except (InherentDataCreationError ε BlockProducer) (EpochCounts BlockProducer) :=
  slotProducers.foldlM (countBlock cfg) .empty

def fetchDelegations (source : BlockParticipationDataSource ε) (mcEpoch : McEpochNumber)
    (producers : List BlockProducer) :
    Except (InherentDataCreationError ε BlockProducer) StakeDistribution :=
  (source mcEpoch (producers.filterMap cfg.asCardanoSpo)).mapError .dataSourceError

def productionBreakdownFor (mcEpoch : McEpochNumber) (blockProducer : BlockProducer)
    (blockCount : ℕ) (distribution : StakeDistribution) :
    Except (InherentDataCreationError ε BlockProducer)
      (BlockProducerParticipationData BlockProducer Delegator) :=
  match cfg.asCardanoSpo blockProducer with
  | none => .ok ⟨blockProducer, blockCount, 0, []⟩
  | some cardanoProducer =>
      match distribution.get? cardanoProducer with
      | none => .error (.dataMissing mcEpoch blockProducer)
      | some delegation =>
          let beneficiaries := delegation.delegators.entries.map fun (key, stakeAmount) =>
            { id := cfg.fromDelegatorKey key, share := stakeAmount }
          .ok ⟨blockProducer, blockCount, delegation.totalStake, beneficiaries⟩

def epochBreakdown (order : IterationOrder BlockProducer)
    (source : BlockParticipationDataSource ε)
    (epochCounts : McEpochNumber × ProducerCounts BlockProducer) :
    Except (InherentDataCreationError ε BlockProducer)
      (List (BlockProducerParticipationData BlockProducer Delegator)) := do
  let (mcEpoch, producerBlocks) := epochCounts
  let visited := order.producers mcEpoch producerBlocks
  let stakeDistribution ← fetchDelegations cfg source mcEpoch (visited.map (·.1))
  visited.mapM fun (producer, blockCount) =>
    productionBreakdownFor cfg mcEpoch producer blockCount stakeDistribution

/-- The provider is inert in a runtime without the interface, and when nothing is released. -/
def BlockParticipationInherentDataProvider.new (order : IterationOrder BlockProducer)
    (source : BlockParticipationDataSource ε) (api : Option (Api BlockProducer))
    (currentSlot : Slot) :
    Except (InherentDataCreationError ε BlockProducer)
      (BlockParticipationInherentDataProvider BlockProducer Delegator) :=
  match api with
  | none => .ok .inert
  | some api =>
      match api.shouldReleaseData currentSlot with
      | none => .ok .inert
      | some upToSlot => do
          let counts ←
            countBlocksByEpochAndProducer cfg (api.blocksProducedUpToSlot upToSlot)
          let productionSummaries ← (order.epochs counts).mapM (epochBreakdown cfg order source)
          .ok (.active api.targetInherentId (.new upToSlot productionSummaries.flatten))

end Provider

end PartnerChains.BlockParticipation
