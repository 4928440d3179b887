import PartnerChains.Algorithm.AriadneInherent

/-!
# Cardano epochs, slots and times

Calculations from the first epoch of the configuration, and the status that a node reports with
them.
-/

namespace PartnerChains.AuthoritySelection

open BlockSource (MainchainEpochConfig)

/-! ## Epochs and slots -/

/-- The duration is taken in seconds. -/
def slotsPerEpoch (cfg : MainchainEpochConfig) : ℕ :=
  cfg.epochDurationMillis.toNat / 1000

def mainchainEpochToTimestamp (overflowChecks : Bool) (cfg : MainchainEpochConfig)
    (epoch : McEpochNumber) : Except Panic ℕ := do
  let timeElapsed ← Checked.mulWith overflowChecks 64 cfg.epochDurationMillis.toNat epoch
  Checked.addWith overflowChecks 64 cfg.firstEpochTimestampMillis.toNat timeElapsed

def firstSlotOfEpoch (overflowChecks : Bool) (cfg : MainchainEpochConfig)
    (epoch : McEpochNumber) : Except EpochDerivationError McSlotNumber :=
  if epoch < cfg.firstEpochNumber.toNat then .error .epochTooSmall
  else do
    let slotsSinceFirstEpoch ← (Checked.mulWith overflowChecks 64
      (epoch - cfg.firstEpochNumber.toNat) (slotsPerEpoch cfg)).mapError .panic
    (Checked.addWith overflowChecks 64 slotsSinceFirstEpoch
      cfg.firstSlotNumber.toNat).mapError .panic

def epochForSlot (overflowChecks : Bool) (cfg : MainchainEpochConfig) (slot : McSlotNumber) :
    Except EpochDerivationError McEpochNumber :=
  if slot < cfg.firstSlotNumber.toNat then .error .slotTooSmall
  else do
    let epochsSinceFirstEpoch ← (Checked.div (slot - cfg.firstSlotNumber.toNat)
      (slotsPerEpoch cfg)).mapError .panic
    if epochsSinceFirstEpoch < 2 ^ 32 then
      (Checked.addWith overflowChecks 32 cfg.firstEpochNumber.toNat
        epochsSinceFirstEpoch).mapError .panic
    else .error .epochTooBig

/-! ## The reported status -/

def ScSlotConfig.slotFromTimestamp (cfg : ScSlotConfig) (timestamp : UInt64) :
    Except Panic UInt64 := do
  let slot ← Checked.div timestamp.toNat cfg.slotDuration.toNat
  .ok (UInt64.ofNat slot)

structure SidechainData where
  epoch : ScEpochNumber
  slot : UInt64
  nextEpochTimestamp : ℕ

structure MainchainData where
  epoch : McEpochNumber
  slot : McSlotNumber
  nextEpochTimestamp : ℕ

structure GetStatusResponse where
  sidechain : SidechainData
  mainchain : MainchainData

inductive GetStatusRpcError (ε : Type) where
  | panic (panic : Panic)
  | runtimeApi (error : ε)
  | cannotConvertSidechainSlotToTimestamp
  | getLatestBlockResponse (error : ε)

/-- The runtime answers with its slots, and the data source with the latest block. -/
def getStatus {ε : Type} (overflowChecks : Bool) (mcEpochConfig : MainchainEpochConfig)
    (slotConfig : Except ε ScSlotConfig) (currentTimestamp : UInt64)
    (latestBlockInfo : Except ε MainchainBlock) :
    Except (GetStatusRpcError ε) GetStatusResponse := do
  let slotConfig ← slotConfig.mapError .runtimeApi
  let slot ← (slotConfig.slotFromTimestamp currentTimestamp).mapError .panic
  let epoch ← (slotConfig.epochNumber slot).mapError .panic
  let nextEpoch ← (Checked.addWith overflowChecks 64 epoch.toNat 1).mapError .panic
  match ← (slotConfig.epochStartTime overflowChecks (UInt64.ofNat nextEpoch)).mapError .panic with
  | none => .error .cannotConvertSidechainSlotToTimestamp
  | some nextEpochTimestamp => do
      let latestMainchainBlock ← latestBlockInfo.mapError .getLatestBlockResponse
      let nextMainchainEpoch ←
        (Checked.addWith overflowChecks 32 latestMainchainBlock.epoch 1).mapError .panic
      let nextMainchainEpochTimestamp ← (mainchainEpochToTimestamp overflowChecks mcEpochConfig
        nextMainchainEpoch).mapError .panic
      .ok ⟨⟨epoch, slot, nextEpochTimestamp⟩,
        ⟨latestMainchainBlock.epoch, latestMainchainBlock.slot, nextMainchainEpochTimestamp⟩⟩

end PartnerChains.AuthoritySelection
