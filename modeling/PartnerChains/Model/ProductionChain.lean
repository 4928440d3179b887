import PartnerChains.Library.Transition
import PartnerChains.Algorithm.ProductionLog

/-!
# Runs of the block production log

Each block has a later slot than its parent. It may append its author, and it may release the
blocks up to any slot, which are read at the parent block and removed in the block itself. A
block with a failing inherent is not valid.
-/

namespace PartnerChains.ProductionLog

variable {Producer : Type}

structure Block (Producer : Type) where
  slot : Slot
  author : Option Producer
  shouldReleaseData : Option Slot

def dispatchAppend (number : ℕ) (author : Option Producer) (r : Runtime Producer) :
    Except DispatchError (Runtime Producer) :=
  match author with
  | none => .ok r
  | some blockProducerId => do
      let productionLog ← append .none number blockProducerId r.productionLog
      .ok { r with productionLog }

def dispatchNoteProcessing (search : PartitionPoint (Slot × Producer)) (upToSlot : Option Slot)
    (r : Runtime Producer) : Except DispatchError (Runtime Producer) :=
  match upToSlot with
  | none => .ok r
  | some upToSlot => noteProcessing search .none upToSlot r

/-- The inherents of a block and its finalization. -/
def executeBlock (search : PartitionPoint (Slot × Producer)) (number : ℕ)
    (block : Block Producer) (provider : ParticipationInherentDataProvider Producer)
    (parent : Runtime Producer) : Except DispatchError (Runtime Producer) := do
  let r ← dispatchAppend number block.author parent
  let r ← dispatchNoteProcessing search provider.upToSlot? r
  .ok { r with productionLog := onFinalize block.slot r.productionLog }

structure Chain (Producer : Type) where
  number : ℕ
  slot : Option Slot
  runtime : Runtime Producer

/-- A block with the data that were released in it. -/
structure Event (Producer : Type) where
  block : Block Producer
  released : List (Slot × Producer)

inductive Step (search : PartitionPoint (Slot × Producer)) :
    Chain Producer → Event Producer → Chain Producer → Prop
  | produce {chain : Chain Producer} (block : Block Producer) {runtime : Runtime Producer} :
      (∀ slot ∈ chain.slot, slot < block.slot) →
      executeBlock search (chain.number + 1) block
        (.new block.shouldReleaseData chain.runtime) chain.runtime = .ok runtime →
      Step search chain
        ⟨block, (ParticipationInherentDataProvider.new block.shouldReleaseData
          chain.runtime).blocksProduced⟩
        ⟨chain.number + 1, some block.slot, runtime⟩

def system (search : PartitionPoint (Slot × Producer)) :
    System (Chain Producer) (Event Producer) where
  Init chain := chain = ⟨0, none, {}⟩
  Step := Step search

/-! ## What an observer sees -/

def Block.entry? (block : Block Producer) : Option (Slot × Producer) :=
  block.author.map fun author => (block.slot, author)

/-- The blocks that were logged, oldest first. -/
def logged (trace : List (Event Producer)) : List (Slot × Producer) :=
  trace.filterMap fun event => event.block.entry?

/-- The blocks that were released for processing, in the order of the releases. -/
def reported (trace : List (Event Producer)) : List (Slot × Producer) :=
  trace.flatMap Event.released

@[simp]
theorem logged_append_singleton (trace : List (Event Producer)) (event : Event Producer) :
    logged (trace ++ [event]) = logged trace ++ event.block.entry?.toList := by
  cases h : event.block.entry? <;> simp [logged, h]

@[simp]
theorem reported_append_singleton (trace : List (Event Producer)) (event : Event Producer) :
    reported (trace ++ [event]) = reported trace ++ event.released := by
  simp [reported]

end PartnerChains.ProductionLog
