import PartnerChains.Algorithm.Authors
import PartnerChains.Algorithm.BlockParticipation
import PartnerChains.Model.CommitteeChain
import PartnerChains.Model.ProductionChain

/-!
# Runs of committee selection and of the block production log

Each block selects the committee of the following epoch if there is none yet, and is logged for
the author that the committee in service at the parent block has in its slot.
-/

namespace PartnerChains.Participation

open AuthoritySelection (ProviderConfig InherentProviderCreationError mcEpochForNextAriadneCidp)
open Committee (CommitteeInfo GenesisConfig createInherent initializeBlock genesisRuntime)

variable {Member AccountId AuthorityKeys Inputs Producer Delegator : Type} {maxValidators : ℕ}

/-- What the chain and its nodes fix. -/
structure Setup (Member AccountId AuthorityKeys Inputs Producer Delegator : Type)
    (maxValidators : ℕ) where
  committee : Committee.Config Member AccountId AuthorityKeys Inputs maxValidators
  provider : ProviderConfig
  usizeBits : ℕ
  authorFrom : Member → Producer
  search : PartitionPoint (ProductionLog.Slot × Producer)
  asCardanoSpo : Producer → Option MainchainKeyHash
  fromDelegatorKey : DelegatorKey → Delegator

/-- Slots and Cardano epochs are those of the selection. -/
def Setup.participation
    (setup : Setup Member AccountId AuthorityKeys Inputs Producer Delegator maxValidators) :
    BlockParticipation.Config Producer Delegator where
  overflowChecks := setup.provider.overflowChecks
  mcEpochConfig := setup.provider.mcEpochConfig
  slotDuration := setup.provider.scSlotConfig.slotDuration
  asCardanoSpo := setup.asCardanoSpo
  fromDelegatorKey := setup.fromDelegatorKey

structure Chain (Member AccountId AuthorityKeys Producer : Type) (maxValidators : ℕ) where
  slot : Option UInt64
  committee : Committee.Chain Member AccountId AuthorityKeys maxValidators
  production : ProductionLog.Runtime Producer

/-- Selection inputs are missing while the Cardano data are not stable. -/
structure Block (Inputs : Type) where
  slot : UInt64
  inputs : Option Inputs
  shouldReleaseData : Option ProductionLog.Slot

/-- A committee that was selected, not kept: for which epoch, with the data of which epoch, and
the Cardano epoch of these data. -/
structure SelectionRecord (Member : Type) where
  forEpoch : ScEpochNumber
  basis : ScEpochNumber
  dataEpoch : McEpochNumber
  members : List Member
  deriving DecidableEq

structure Event (Member : Type) where
  slot : UInt64
  selection : Option (SelectionRecord Member)
  deriving DecidableEq

inductive InvalidBlock where
  | slotNotIncreased
  | panic (panic : Panic)
  | provider (error : InherentProviderCreationError Empty)
  | mcEpochBelowOffset (offset : ℕ)
  | committee (error : Committee.DispatchError)
  | production (error : ProductionLog.DispatchError)

section Blocks

variable (setup : Setup Member AccountId AuthorityKeys Inputs Producer Delegator maxValidators)

/-- The epoch with the data of which the next committee is selected: the first one without a
committee, or that of the block while the committees have the epoch of genesis. -/
def selectionBasis (parent : Committee.Storage Member maxValidators) (epoch : ScEpochNumber) :
    ScEpochNumber :=
  if Committee.getNextUnsetEpochNumber parent = 1 then epoch
  else Committee.getNextUnsetEpochNumber parent

/-- What is selected in a state, if anything is. -/
def selection (basis : ScEpochNumber) (dataEpoch : McEpochNumber)
    (s : Committee.Storage Member maxValidators) (inputs : Option Inputs) :
    Option (SelectionRecord Member) :=
  if s.nextCommittee.isSome then none
  else do
    let forEpoch := s.currentCommittee.epoch + 1
    let validators ← setup.committee.selectAuthorities (← inputs) forEpoch
    some ⟨forEpoch, basis, dataEpoch, validators.toList⟩

def dispatchInherent (call : Option (Committee.Call Member maxValidators))
    (s : Committee.Storage Member maxValidators) :
    Except Committee.DispatchError (Committee.Storage Member maxValidators) :=
  match call with
  | none => .ok s
  | some call => Committee.dispatch setup.committee .none call s

/-- The data epoch and the author are taken from the parent, the call is created after the
initialization. -/
def produceBlock (chain : Chain Member AccountId AuthorityKeys Producer maxValidators)
    (block : Block Inputs) :
    Except InvalidBlock
      (Event Member × Chain Member AccountId AuthorityKeys Producer maxValidators) :=
  if chain.slot.any (block.slot ≤ ·) then .error .slotNotIncreased
  else do
    let number := chain.committee.number + 1
    let parent := chain.committee.runtime.management
    let epoch ← (setup.provider.scSlotConfig.epochNumber block.slot).mapError .panic
    let forMcEpoch ←
      (mcEpochForNextAriadneCidp setup.provider parent block.slot).mapError .provider
    let dataEpoch ← (Candidates.offsetDataEpoch forMcEpoch).mapError .mcEpochBelowOffset
    let runtime ←
      (initializeBlock setup.committee number epoch chain.committee.runtime).mapError .panic
    let call ←
      (createInherent setup.committee runtime.management (.ok block.inputs)).mapError .panic
    let management ← (dispatchInherent setup call runtime.management).mapError .committee
    let author := (Authors.getAuthor setup.usizeBits parent block.slot).map setup.authorFrom
    let production ← (ProductionLog.executeBlock setup.search number
      ⟨block.slot.toNat, author, block.shouldReleaseData⟩
      (.new block.shouldReleaseData chain.production) chain.production).mapError .production
    .ok (⟨block.slot, selection setup (selectionBasis parent epoch) dataEpoch
        runtime.management block.inputs⟩,
      { slot := some block.slot
        committee := ⟨number, epoch, { runtime with management }⟩
        production })

def produceBlocks (chain : Chain Member AccountId AuthorityKeys Producer maxValidators) :
    List (Block Inputs) → Except InvalidBlock
      (List (Event Member) × Chain Member AccountId AuthorityKeys Producer maxValidators)
  | [] => .ok ([], chain)
  | block :: blocks => do
      let (event, next) ← produceBlock setup chain block
      let (trace, last) ← produceBlocks next blocks
      .ok (event :: trace, last)

def genesisChain (genesis : GenesisConfig Member) :
    Chain Member AccountId AuthorityKeys Producer maxValidators where
  slot := none
  committee := ⟨0, 0, genesisRuntime setup.committee genesis⟩
  production := {}

def system (genesis : GenesisConfig Member) :
    System (Chain Member AccountId AuthorityKeys Producer maxValidators) (Event Member) where
  Init chain := chain = genesisChain setup genesis
  Step chain event next := ∃ block, produceBlock setup chain block = .ok (event, next)

theorem run_of_produceBlocks {genesis : GenesisConfig Member}
    {chain last : Chain Member AccountId AuthorityKeys Producer maxValidators}
    {before trace : List (Event Member)} {blocks : List (Block Inputs)}
    (run : (system setup genesis).Run before chain)
    (h : produceBlocks setup chain blocks = .ok (trace, last)) :
    (system setup genesis).Run (before ++ trace) last := by
  induction blocks generalizing before chain trace with
  | nil =>
      obtain ⟨rfl, rfl⟩ := Prod.mk.inj (Except.ok.inj h)
      rwa [List.append_nil]
  | cons block blocks ih =>
      obtain ⟨⟨event, next⟩, hblock, hrest⟩ := Fallible.bind_eq_ok_iff.mp h
      obtain ⟨⟨rest, last'⟩, hblocks, hresult⟩ := Fallible.bind_eq_ok_iff.mp hrest
      obtain ⟨rfl, rfl⟩ := Prod.mk.inj (Except.ok.inj hresult)
      have hrun := ih (run.step ⟨block, hblock⟩) hblocks
      rwa [List.append_assoc] at hrun

/-- What the participation provider is told on top of a block. -/
def api (release : BlockParticipation.Slot → Option BlockParticipation.Slot)
    (targetInherentId : Bytes 8)
    (chain : Chain Member AccountId AuthorityKeys Producer maxValidators) :
    BlockParticipation.Api Producer where
  shouldReleaseData := release
  blocksProducedUpToSlot slot := ProductionLog.peekPrefix slot chain.production.productionLog
  targetInherentId

/-! ## What an observer sees -/

/-- A pool was selected from the data of an epoch. -/
def SelectedFrom (trace : List (Event Member)) (epoch : McEpochNumber)
    (pool : MainchainKeyHash) : Prop :=
  ∃ event ∈ trace, ∃ record ∈ event.selection, record.dataEpoch = epoch ∧
    ∃ member ∈ record.members, setup.asCardanoSpo (setup.authorFrom member) = some pool

end Blocks

end PartnerChains.Participation
