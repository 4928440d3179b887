import PartnerChains.Library.PartitionPoint
import PartnerChains.Algorithm.Domain

/-!
# The block production log and the block participation pallet

The log records the producer of each block under its slot when the block is finalized. The
participation pallet removes the blocks whose data were released for processing.
-/

namespace PartnerChains.ProductionLog

abbrev Slot := ℕ

variable {Producer : Type}

/-! ## The log pallet -/

structure Storage (Producer : Type) where
  log : List (Slot × Producer) := []
  currentProducer : Option Producer := none
  latestBlock : Option ℕ := none
  deriving DecidableEq

inductive DispatchError where
  | badOrigin
  | blockNumberNotIncreased
  | upToSlotNotIncreased
  deriving DecidableEq

def append (origin : Origin) (currentBlock : ℕ) (blockProducerId : Producer)
    (s : Storage Producer) : Except DispatchError (Storage Producer) :=
  if origin ≠ .none then .error .badOrigin
  else if s.latestBlock.any fun block => currentBlock ≤ block then
    .error .blockNumberNotIncreased
  else .ok { s with latestBlock := some currentBlock, currentProducer := some blockProducerId }

def onFinalize (currentSlot : Slot) (s : Storage Producer) : Storage Producer :=
  match s.currentProducer with
  | some blockProducerId =>
      { s with log := s.log ++ [(currentSlot, blockProducerId)], currentProducer := none }
  | none => s

def takePrefix (search : PartitionPoint (Slot × Producer)) (slot : Slot) (s : Storage Producer) :
    List (Slot × Producer) × Storage Producer :=
  let pos := search.find (fun entry => decide (entry.1 ≤ slot)) s.log
  (s.log.take pos, { s with log := s.log.drop pos })

def peekPrefix (slot : Slot) (s : Storage Producer) : List (Slot × Producer) :=
  s.log.takeWhile fun entry => decide (entry.1 ≤ slot)

def dropPrefix (search : PartitionPoint (Slot × Producer)) (slot : Slot) (s : Storage Producer) :
    Storage Producer :=
  let position := search.find (fun entry => decide (entry.1 ≤ slot)) s.log
  { s with log := s.log.drop position }

/-! ## The inherent of the log pallet -/

inductive Call (Producer : Type) where
  | append (blockProducerId : Producer)
  deriving DecidableEq

inductive InherentError where
  | inherentRequired
  | invalidInherentData
  deriving DecidableEq

def decodeInherentData (data : InherentSlot Producer) : Except InherentError (Option Producer) :=
  match data with
  | .error _ => .error .invalidInherentData
  | .ok blockProducerId => .ok blockProducerId

def createInherent (data : InherentSlot Producer) : Except Panic (Option (Call Producer)) :=
  match decodeInherentData data with
  | .error _ =>
      .error ⟨"called `Result::unwrap()` on an `Err` value: InvalidInherentData"⟩
  | .ok blockProducerId => .ok (blockProducerId.map .append)

/-- The pallet does not define this check, the default of the framework accepts all calls. -/
def checkInherent (_call : Call Producer) (_data : InherentSlot Producer) :
    Except InherentError Unit := .ok ()

def isInherent : Call Producer → Bool
  | .append _ => true

def isInherentRequired (s : Storage Producer) (data : InherentSlot Producer) :
    Except InherentError (Option InherentError) := do
  let blockProducerId ← decodeInherentData data
  if blockProducerId.isSome || s.latestBlock.isSome then .ok (some .inherentRequired)
  else .ok none

/-- The provider asks the runtime at the parent block, when the runtime has the interface. -/
def authorInherentData {Member : Type} (getAuthor : Option (Slot → Option Member))
    (authorFrom : Member → Producer) (slot : Slot) : InherentSlot Producer :=
  match getAuthor with
  | none => .ok none
  | some getAuthor => .ok ((getAuthor slot).map authorFrom)

/-! ## The participation pallet -/

/-- The storage of both pallets. -/
structure Runtime (Producer : Type) where
  productionLog : Storage Producer := {}
  processedUpToSlot : Slot := 0
  deriving DecidableEq

def noteProcessing (search : PartitionPoint (Slot × Producer)) (origin : Origin)
    (upToSlot : Slot) (r : Runtime Producer) : Except DispatchError (Runtime Producer) :=
  if origin ≠ .none then .error .badOrigin
  else if upToSlot ≤ r.processedUpToSlot then .error .upToSlotNotIncreased
  else .ok { productionLog := dropPrefix search upToSlot r.productionLog
             processedUpToSlot := upToSlot }

/-- What the inherent data provider reads at the parent block. The blocks are handed to the
pallet that processes them, the slot to the participation pallet. -/
inductive ParticipationInherentDataProvider (Producer : Type) where
  | active (upToSlot : Slot) (blocksProduced : List (Slot × Producer))
  | inert
  deriving DecidableEq

namespace ParticipationInherentDataProvider

def new (shouldReleaseData : Option Slot) (parent : Runtime Producer) :
    ParticipationInherentDataProvider Producer :=
  match shouldReleaseData with
  | none => .inert
  | some upToSlot => .active upToSlot (peekPrefix upToSlot parent.productionLog)

def upToSlot? : ParticipationInherentDataProvider Producer → Option Slot
  | .active upToSlot _ => some upToSlot
  | .inert => none

def blocksProduced : ParticipationInherentDataProvider Producer → List (Slot × Producer)
  | .active _ blocksProduced => blocksProduced
  | .inert => []

end ParticipationInherentDataProvider

end PartnerChains.ProductionLog
