import PartnerChains.Algorithm.Domain

/-!
# Binary search for blocks of an epoch or of a range of slots

The search runs over the blocks of an archive node, of which every state can be read. It
includes the end of its range, which is the number after the best block.
-/

namespace PartnerChains.BlockSearch

/-- Why a search has no result: the program stopped, or it needs more iterations. -/
inductive Stop where
  | panic (panic : Panic)
  | unfinished
  deriving DecidableEq

/-- Numbers have `bits` bits. A comparison that fails ends the search. -/
def binarySearchBy {ε : Type} (overflowChecks : Bool) (bits : ℕ) (f : ℕ → Except ε Ordering) :
    ℕ → ℕ → ℕ → Except Stop (Option ℕ)
  | 0, _, _ => .error .unfinished
  | fuel + 1, left, right =>
      if left ≤ right then do
        let sum ← (Checked.addWith overflowChecks bits left right).mapError .panic
        let middle := sum / 2
        match f middle with
        | .error _ => .ok none
        | .ok .eq => .ok (some middle)
        | .ok .lt => do
            let left ← (Checked.addWith overflowChecks bits middle 1).mapError .panic
            binarySearchBy overflowChecks bits f fuel left right
        | .ok .gt => do
            let right ← (Checked.subWith overflowChecks bits middle 1).mapError .panic
            binarySearchBy overflowChecks bits f fuel left right
      else .ok none

/-! ## Archive nodes -/

abbrev ScSlotNumber := UInt64

/-- Slots from `start` on and before `stop`. -/
structure SlotRange where
  start : ScSlotNumber
  stop : ScSlotNumber

/-- The states of a node, from the genesis block on. -/
structure Client (Block : Type) where
  ancestors : List Block
  best : Block

inductive ApiError where
  | unknownBlock (message : String)
  | application (message : String)
  deriving DecidableEq

namespace Client

variable {Block : Type} (client : Client Block)

def blocks : List Block := client.ancestors ++ [client.best]

def genesis : Block := client.ancestors.headD client.best

def bestNumber : ℕ := client.ancestors.length

def hash (number : ℕ) : Option Block := client.blocks[number]?

def getEpochOfBlock (epochOf : Block → ScEpochNumber) (blockNumber : ℕ) :
    Except ApiError ScEpochNumber :=
  match client.hash blockNumber with
  | none => .error (.unknownBlock s!"Block Number {blockNumber} does not exist")
  | some block => .ok (epochOf block)

/-! ## Blocks of an epoch -/

def anyBlockInEpoch (epochOf : Block → ScEpochNumber) (epoch : ScEpochNumber)
    (block : ℕ) : Except ApiError Ordering := do
  let epochBlock ← client.getEpochOfBlock epochOf block
  .ok (compare epochBlock.toNat epoch.toNat)

/-- The last block of an epoch is seen by the block after it. -/
def lastBlockInEpoch (epochOf : Block → ScEpochNumber) (epoch : ScEpochNumber)
    (block : ℕ) : Except ApiError Ordering := do
  let epochBlock ← client.getEpochOfBlock epochOf block
  match compare epochBlock.toNat epoch.toNat with
  | .eq => do
      let nextEpoch ← client.getEpochOfBlock epochOf (block + 1)
      match compare nextEpoch.toNat epoch.toNat with
      | .gt => .ok .eq
      | _ => .ok .lt
  | ordering => .ok ordering

/-! ## Blocks of a range of slots -/

def getSlotOfBlock (slotOf : Block → ScSlotNumber) (blockNumber : ℕ) :
    Except ApiError ScSlotNumber :=
  match client.hash blockNumber with
  | none => .error (.unknownBlock s!"Block Number {blockNumber} does not exist")
  | some block => .ok (slotOf block)

def anyBlockInSlotRange (slotOf : Block → ScSlotNumber) (slotRange : SlotRange)
    (block : ℕ) : Except ApiError Ordering := do
  let slotOfBlock ← client.getSlotOfBlock slotOf block
  if slotOfBlock < slotRange.start then .ok .lt
  else if slotRange.stop ≤ slotOfBlock then .ok .gt
  else .ok .eq

/-- From `latestBlock` on, every block of the range compares equal. -/
def latestBlockInSlotRange (slotOf : Block → ScSlotNumber) (slotRange : SlotRange)
    (latestBlock : ℕ) (block : ℕ) : Except ApiError Ordering := do
  match ← client.anyBlockInSlotRange slotOf slotRange block with
  | .eq =>
      if block < latestBlock then
        match ← client.anyBlockInSlotRange slotOf slotRange (block + 1) with
        | .gt => .ok .eq
        | _ => .ok .lt
      else .ok .eq
  | ordering => .ok ordering

inductive FindError where
  | stop (stop : Stop)
  | api (error : ApiError)
  deriving DecidableEq

/-- Block numbers have 32 bits. -/
def findBlockNumber (overflowChecks : Bool) (fuel : ℕ)
    (compareBlock : ℕ → Except ApiError Ordering) : Except FindError ℕ := do
  let right ← (Checked.addWith overflowChecks 32 client.bestNumber 1).mapError
    fun panic => .stop (.panic panic)
  match ← (binarySearchBy overflowChecks 32 compareBlock fuel 1 right).mapError .stop with
  | some number => .ok number
  | none => .error (.api (.application "Could not find block"))

def findBlock (overflowChecks : Bool) (fuel : ℕ)
    (compareBlock : ℕ → Except ApiError Ordering) : Except FindError Block := do
  let blockNumber ← client.findBlockNumber overflowChecks fuel compareBlock
  match client.hash blockNumber with
  | some block => .ok block
  | none => .error (.stop (.panic
      ⟨"Block with given number exists, so its hash should exists as well"⟩))

end Client

end PartnerChains.BlockSearch
