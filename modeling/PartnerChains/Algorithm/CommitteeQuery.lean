import PartnerChains.Algorithm.BlockSearch
import PartnerChains.Algorithm.Committee

/-!
# The committee of an epoch, as a node answers it

The answer is the committee in service at some block of the epoch, the genesis committee for
epoch 0, or the stored committee for the epoch after the one of the best block.
-/

namespace PartnerChains.CommitteeQuery

open BlockSearch

/-- What the query reads from the runtime of a block. -/
structure RuntimeApi (Block Member : Type) where
  sidechainEpoch : Block → ScEpochNumber
  getCurrentCommittee : Block → ScEpochNumber × List Member
  getNextCommittee : Block → Option (ScEpochNumber × List Member)

/-- Committee members are shown by their identifiers. -/
structure GetCommitteeResponse (AccountId : Type) where
  sidechainEpoch : ScEpochNumber
  committee : List AccountId
  deriving DecidableEq

inductive QueryError where
  | message (text : String)
  | find (error : Client.FindError)
  | api (error : ApiError)
  | panic (panic : Panic)
  deriving DecidableEq

section Query

variable {Block Member AccountId : Type} (api : RuntimeApi Block Member)
  (authorityId : Member → AccountId)

def GetCommitteeResponse.new (committee : ScEpochNumber × List Member) :
    GetCommitteeResponse AccountId :=
  ⟨committee.1, committee.2.map authorityId⟩

def getCurrentCommitteeVersioned (block : Block) : GetCommitteeResponse AccountId :=
  .new authorityId (api.getCurrentCommittee block)

def getNextCommitteeVersioned (block : Block) : Option (GetCommitteeResponse AccountId) :=
  (api.getNextCommittee block).map (.new authorityId)

def nextEpoch (overflowChecks : Bool) (epoch : ScEpochNumber) : Except Panic ScEpochNumber := do
  let next ← Checked.addWith overflowChecks 64 epoch.toNat 1
  .ok (UInt64.ofNat next)

def getEpochCommittee (overflowChecks : Bool) (fuel : ℕ) (client : Client Block)
    (epochNumber : ScEpochNumber) : Except QueryError (GetCommitteeResponse AccountId) :=
  if epochNumber = 0 then
    let genesisCommittee := getCurrentCommitteeVersioned api authorityId client.genesis
    .ok { genesisCommittee with sidechainEpoch := 0 }
  else
    match client.hash 1 with
    | none => .error (.message "Only the Genesis Block exists at the moment!")
    | some secondBlock =>
        let firstEpoch := api.sidechainEpoch secondBlock
        if epochNumber < firstEpoch then
          .error (.message s!"Epoch {epochNumber} is earlier than the Initial Epoch!")
        else do
          let epochOfLatestBlock ← (client.getEpochOfBlock api.sidechainEpoch
            client.bestNumber).mapError .api
          let next ← (nextEpoch overflowChecks epochOfLatestBlock).mapError .panic
          if next < epochNumber then
            .error (.message s!"Committee is unknown for epoch {epochNumber}")
          else if epochNumber = next then
            match getNextCommitteeVersioned api authorityId client.best with
            | some response => .ok response
            | none => .error (.message
                s!"Committee is unknown for the next epoch: {epochNumber}")
          else do
            let block ← (client.findBlock overflowChecks fuel
              (client.anyBlockInEpoch api.sidechainEpoch epochNumber)).mapError .find
            .ok (getCurrentCommitteeVersioned api authorityId block)

end Query

end PartnerChains.CommitteeQuery
