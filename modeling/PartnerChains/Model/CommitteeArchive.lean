import PartnerChains.Algorithm.CommitteeQuery
import PartnerChains.Model.CommitteeChain

/-!
# Archive nodes that follow a run of the committee pallet

A block is initialized and dispatches its calls. The node keeps the state after each block.
-/

namespace PartnerChains.Committee

open BlockSearch CommitteeQuery

variable {Member AccountId AuthorityKeys Inputs : Type} {maxValidators : ℕ}
variable (cfg : Config Member AccountId AuthorityKeys Inputs maxValidators)

/-- The calls of a block change its state one after the other. -/
def Calls :
    Chain Member AccountId AuthorityKeys maxValidators →
      Chain Member AccountId AuthorityKeys maxValidators → Prop :=
  Relation.ReflTransGen fun chain chain' =>
    (∃ call, Step cfg chain (.accepted call) chain') ∨
      ∃ call error, Step cfg chain (.rejected call error) chain'

/-- A block of an epoch on top of its parent. -/
def NewBlock (parent : Chain Member AccountId AuthorityKeys maxValidators) (epoch : ScEpochNumber)
    (block : Chain Member AccountId AuthorityKeys maxValidators) : Prop :=
  ∃ inService started, Step cfg parent (.initialized inService) started ∧
    started.currentEpochNumber = epoch ∧ Calls cfg started block

/-- The event is the epoch of the new block. -/
def archiveSystem (genesis : GenesisConfig Member) :
    System (Client (Chain Member AccountId AuthorityKeys maxValidators)) ScEpochNumber where
  Init client := client = ⟨[], 0, 0, genesisRuntime cfg genesis⟩
  Step client epoch client' := ∃ block, NewBlock cfg client.best epoch block ∧
    client' = ⟨client.blocks, block⟩

def CommitteeInfo.asPair (info : CommitteeInfo Member maxValidators) :
    ScEpochNumber × List Member :=
  (info.epoch, info.committee.toList)

def runtimeApi : RuntimeApi (Chain Member AccountId AuthorityKeys maxValidators) Member where
  sidechainEpoch := Chain.currentEpochNumber
  getCurrentCommittee block := block.runtime.management.currentCommittee.asPair
  getNextCommittee block := block.runtime.management.nextCommittee.map CommitteeInfo.asPair

/-- A block after the first one is in the epoch of the committee in service at its parent, or
in the epoch after it, for which its parent has stored a committee. -/
def SkipsNoEpoch (client : Client (Chain Member AccountId AuthorityKeys maxValidators))
    (epoch : ScEpochNumber) : Prop :=
  let parent := client.best.runtime.management
  client.bestNumber = 0 ∨ epoch = parent.currentCommittee.epoch ∨
    (parent.nextCommittee.isSome = true ∧ epoch = parent.currentCommittee.epoch + 1)

end PartnerChains.Committee
