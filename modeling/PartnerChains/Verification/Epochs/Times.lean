import PartnerChains.Algorithm.MainchainEpochs
import PartnerChains.Verification.Committee.SelectionData

/-!
# Times of Cardano epochs

The time of an epoch is counted from the first epoch as if that one had number zero. Epochs of the
Partner Chain stay within Cardano epochs when their boundaries coincide.
-/

namespace PartnerChains.AuthoritySelection

open BlockSource (MainchainEpochConfig)
open Fallible

/-! ## The epoch of a time -/

theorem epochsPassed_eq_ok_iff {cfg : MainchainEpochConfig} {time passed : ℕ} :
    epochsPassed cfg time = .ok passed ↔
      cfg.firstEpochTimestampMillis.toNat ≤ time ∧ cfg.epochDurationMillis.toNat ≠ 0 ∧
      (time - cfg.firstEpochTimestampMillis.toNat) / cfg.epochDurationMillis.toNat = passed ∧
      passed < 2 ^ 31 := by
  constructor
  · intro h
    obtain ⟨hfirst, hpos, hpassed⟩ := epochsPassed_eq_ok h
    refine ⟨hfirst, hpos, hpassed, ?_⟩
    rw [epochsPassed, if_neg (Nat.not_lt.mpr hfirst)] at h
    obtain ⟨_, -, h⟩ := bind_eq_ok_iff.mp h
    split_ifs at h with hsmall
    rwa [Except.ok.inj h] at hsmall
  · rintro ⟨hfirst, hpos, rfl, hsmall⟩
    rw [epochsPassed, if_neg (Nat.not_lt.mpr hfirst), Checked.div_of_pos (Nat.pos_of_ne_zero hpos)]
    exact if_pos hsmall

theorem timestampToMainchainEpoch_eq_ok_iff {cfg : MainchainEpochConfig} {time epoch : ℕ} :
    timestampToMainchainEpoch cfg time = .ok epoch ↔
      ∃ passed, epochsPassed cfg time = .ok passed ∧
        min (cfg.firstEpochNumber.toNat + passed) (2 ^ 32 - 1) = epoch := by
  rw [timestampToMainchainEpoch, bind_eq_ok_iff]
  simp only [Except.ok.injEq]

theorem timestampToMainchainEpoch_congr {cfg : MainchainEpochConfig} {time time' : ℕ}
    (htime : cfg.firstEpochTimestampMillis.toNat ≤ time)
    (htime' : cfg.firstEpochTimestampMillis.toNat ≤ time')
    (h : (time - cfg.firstEpochTimestampMillis.toNat) / cfg.epochDurationMillis.toNat =
      (time' - cfg.firstEpochTimestampMillis.toNat) / cfg.epochDurationMillis.toNat) :
    timestampToMainchainEpoch cfg time = timestampToMainchainEpoch cfg time' := by
  simp only [timestampToMainchainEpoch, epochsPassed, if_neg (Nat.not_lt.mpr htime),
    if_neg (Nat.not_lt.mpr htime'), Checked.div, h]

/-! ## The start of an epoch -/

theorem mainchainEpochToTimestamp_of_lt (overflowChecks : Bool) {cfg : MainchainEpochConfig}
    {epoch : ℕ} (h : cfg.firstEpochTimestampMillis.toNat +
      cfg.epochDurationMillis.toNat * epoch < 2 ^ 64) :
    mainchainEpochToTimestamp overflowChecks cfg epoch =
      .ok (cfg.firstEpochTimestampMillis.toNat + cfg.epochDurationMillis.toNat * epoch) := by
  rw [mainchainEpochToTimestamp, Checked.mulWith_of_lt _ (lt_of_le_of_lt (Nat.le_add_left _ _) h),
    ok_bind, Checked.addWith_of_lt _ h]

theorem mainchainEpochToTimestamp_checked {cfg : MainchainEpochConfig} {epoch time : ℕ}
    (h : mainchainEpochToTimestamp true cfg epoch = .ok time) :
    time = cfg.firstEpochTimestampMillis.toNat + cfg.epochDurationMillis.toNat * epoch := by
  obtain ⟨elapsed, hmul, hadd⟩ := bind_eq_ok_iff.mp h
  obtain ⟨-, rfl⟩ := Checked.mul_eq_ok_iff.mp hmul
  exact (Checked.narrow_eq_ok_iff.mp hadd).2.symm

/-- The computed time of an epoch is the least one that belongs to it. -/
def StartsAtTimestamp (overflowChecks : Bool) (cfg : MainchainEpochConfig)
    (epoch : McEpochNumber) : Prop :=
  ∃ time, mainchainEpochToTimestamp overflowChecks cfg epoch = .ok time ∧
    IsLeast { t | timestampToMainchainEpoch cfg t = .ok epoch } time

/-- Whenever an epoch is reported as the next one, its time lies after the current epoch. -/
def ReportedAfterCurrent (overflowChecks : Bool) (cfg : MainchainEpochConfig)
    (epoch : McEpochNumber) : Prop :=
  ∀ {ε : Type} (slotConfig : Except ε ScSlotConfig) (now : UInt64)
    (latest : Except ε MainchainBlock) (response : GetStatusResponse),
    getStatus overflowChecks cfg slotConfig now latest = .ok response →
    response.mainchain.epoch + 1 = epoch →
    ∀ time, timestampToMainchainEpoch cfg time = .ok response.mainchain.epoch →
      time < response.mainchain.nextEpochTimestamp

theorem getStatus_eq_ok {ε : Type} {overflowChecks : Bool} {cfg : MainchainEpochConfig}
    {slotConfig : Except ε ScSlotConfig} {now : UInt64} {latest : Except ε MainchainBlock}
    {response : GetStatusResponse}
    (h : getStatus overflowChecks cfg slotConfig now latest = .ok response) :
    ∃ next, Checked.addWith overflowChecks 32 response.mainchain.epoch 1 = .ok next ∧
      mainchainEpochToTimestamp overflowChecks cfg next =
        .ok response.mainchain.nextEpochTimestamp := by
  simp only [getStatus, bind_eq_ok_iff, mapError_eq_ok_iff] at h
  obtain ⟨_, -, slot, -, epoch, -, nextEpoch, -, start, -, h⟩ := h
  cases start with
  | none => cases h
  | some start =>
      simp only [bind_eq_ok_iff, mapError_eq_ok_iff] at h
      obtain ⟨block, -, next, hnext, time, htime, hresponse⟩ := h
      obtain rfl := Except.ok.inj hresponse
      exact ⟨next, hnext, htime⟩

/-! ### Epochs that are counted from zero -/

section

variable {cfg : MainchainEpochConfig} (hzero : cfg.firstEpochNumber.toNat = 0)

include hzero

/-- The number of an epoch is the number of epochs that have passed. -/
theorem timestampToMainchainEpoch_iff_passed {time epoch : ℕ} :
    timestampToMainchainEpoch cfg time = .ok epoch ↔ epochsPassed cfg time = .ok epoch := by
  rw [timestampToMainchainEpoch_eq_ok_iff, hzero]
  constructor
  · rintro ⟨passed, hpassed, hmin⟩
    obtain ⟨-, -, -, hlt⟩ := epochsPassed_eq_ok_iff.mp hpassed
    obtain rfl : passed = epoch := by omega
    exact hpassed
  · intro hpassed
    obtain ⟨-, -, -, hlt⟩ := epochsPassed_eq_ok_iff.mp hpassed
    exact ⟨epoch, hpassed, by omega⟩

variable (hduration : 0 < cfg.epochDurationMillis.toNat) {epoch : ℕ} (hsmall : epoch < 2 ^ 31)
  (hstart : cfg.firstEpochTimestampMillis.toNat + cfg.epochDurationMillis.toNat * epoch < 2 ^ 64)
  (overflowChecks : Bool)

include hduration hsmall hstart

theorem startsAtTimestamp_of_zero : StartsAtTimestamp overflowChecks cfg epoch := by
  refine ⟨_, mainchainEpochToTimestamp_of_lt overflowChecks hstart, ?_, fun time htime => ?_⟩
  · refine (timestampToMainchainEpoch_iff_passed hzero).mpr (epochsPassed_eq_ok_iff.mpr
      ⟨Nat.le_add_right _ _, hduration.ne', ?_, hsmall⟩)
    rw [Nat.add_sub_cancel_left, Nat.mul_div_cancel_left _ hduration]
  · obtain ⟨hle, -, rfl, -⟩ :=
      epochsPassed_eq_ok_iff.mp ((timestampToMainchainEpoch_iff_passed hzero).mp htime)
    have hmul := Nat.mul_div_le (time - cfg.firstEpochTimestampMillis.toNat)
      cfg.epochDurationMillis.toNat
    omega

theorem reportedAfterCurrent_of_zero : ReportedAfterCurrent overflowChecks cfg epoch := by
  rintro ε slotConfig now latest response hstatus rfl time htime
  obtain ⟨next, hnext, hreported⟩ := getStatus_eq_ok hstatus
  obtain rfl := Except.ok.inj
    ((Checked.addWith_of_lt overflowChecks (hsmall.trans (by decide))).symm.trans hnext)
  obtain ⟨hle, -, hdiv, -⟩ :=
    epochsPassed_eq_ok_iff.mp ((timestampToMainchainEpoch_iff_passed hzero).mp htime)
  rw [mainchainEpochToTimestamp_of_lt overflowChecks hstart] at hreported
  rw [← Except.ok.inj hreported, ← hdiv]
  have hlt := Nat.lt_mul_div_succ (time - cfg.firstEpochTimestampMillis.toNat) hduration
  omega

end

/-- Time and epoch are inverse in every build exactly when epochs are counted from zero and the
epoch is one that times are mapped to. -/
theorem startsAtTimestamp_iff (cfg : MainchainEpochConfig)
    (hduration : 0 < cfg.epochDurationMillis.toNat) {epoch : ℕ}
    (_hfirst : cfg.firstEpochNumber.toNat ≤ epoch)
    (hstart : cfg.firstEpochTimestampMillis.toNat +
      cfg.epochDurationMillis.toNat * (epoch - cfg.firstEpochNumber.toNat) < 2 ^ 64) :
    (∀ overflowChecks, StartsAtTimestamp overflowChecks cfg epoch ∧
        ReportedAfterCurrent overflowChecks cfg epoch) ↔
      cfg.firstEpochNumber = 0 ∧ epoch < 2 ^ 31 := by
  constructor
  · intro h
    obtain ⟨⟨time, htime, hmem, -⟩, -⟩ := h true
    obtain ⟨passed, hpassed, hepoch⟩ := timestampToMainchainEpoch_eq_ok_iff.mp hmem
    obtain ⟨-, -, rfl, hsmall⟩ := epochsPassed_eq_ok_iff.mp hpassed
    rw [mainchainEpochToTimestamp_checked htime, Nat.add_sub_cancel_left,
      Nat.mul_div_cancel_left _ hduration] at hsmall hepoch
    have hzero : cfg.firstEpochNumber.toNat = 0 := by omega
    exact ⟨UInt32.toNat_inj.mp hzero, hsmall⟩
  · rintro ⟨hnumber, hsmall⟩ overflowChecks
    have hzero : cfg.firstEpochNumber.toNat = 0 := by rw [hnumber]; rfl
    rw [hzero, Nat.sub_zero] at hstart
    exact ⟨startsAtTimestamp_of_zero hzero hduration hsmall hstart overflowChecks,
      reportedAfterCurrent_of_zero hzero hduration hsmall hstart overflowChecks⟩

/-- The Cardano preview network. -/
def preview : MainchainEpochConfig := ⟨86400000, 1000, 1666656000000, 0, 0⟩

theorem startsAtTimestamp_iff_preview :
    StartsAtTimestamp true preview 100 ∧ StartsAtTimestamp false preview 100 := by
  have h := (startsAtTimestamp_iff preview (by decide) (by decide) (by decide)).mpr
    ⟨rfl, (by decide : 100 < 2 ^ 31)⟩
  exact ⟨(h true).1, (h false).1⟩

/-- The Cardano main network from its first Shelley epoch on. -/
def mainnet : MainchainEpochConfig := ⟨432000000, 1000, 1596059091000, 208, 4492800⟩

theorem not_startsAtTimestamp {overflowChecks : Bool} {cfg : MainchainEpochConfig}
    {epoch other time : ℕ} (hstart : mainchainEpochToTimestamp overflowChecks cfg epoch = .ok time)
    (hother : timestampToMainchainEpoch cfg time = .ok other) (hne : other ≠ epoch) :
    ¬ StartsAtTimestamp overflowChecks cfg epoch := by
  rintro ⟨time', htime', hmem, -⟩
  obtain rfl := Except.ok.inj (hstart.symm.trans htime')
  exact hne (Except.ok.inj (hother.symm.trans hmem))

/-- The computed start of epoch 500 belongs to epoch 708. -/
theorem mainnet_epoch_starts_too_late :
    mainchainEpochToTimestamp true mainnet 500 = .ok 1812059091000 ∧
      mainchainEpochToTimestamp false mainnet 500 = .ok 1812059091000 ∧
      timestampToMainchainEpoch mainnet 1812059091000 = .ok 708 ∧
      ¬ StartsAtTimestamp true mainnet 500 ∧ ¬ StartsAtTimestamp false mainnet 500 := by
  have hchecked : mainchainEpochToTimestamp true mainnet 500 = .ok 1812059091000 := by decide
  have hwrapping : mainchainEpochToTimestamp false mainnet 500 = .ok 1812059091000 := by decide
  have hepoch : timestampToMainchainEpoch mainnet 1812059091000 = .ok 708 := by decide
  exact ⟨hchecked, hwrapping, hepoch, not_startsAtTimestamp hchecked hepoch (by decide),
    not_startsAtTimestamp hwrapping hepoch (by decide)⟩

/-! ## Epochs of the Partner Chain -/

variable {slot : UInt64}

theorem epochNumber_eq_ok {cfg : ScSlotConfig} {epoch : ScEpochNumber}
    (h : cfg.epochNumber slot = .ok epoch) :
    cfg.slotsPerEpoch.toNat ≠ 0 ∧ epoch.toNat = slot.toNat / cfg.slotsPerEpoch.toNat := by
  obtain ⟨_, hdiv, hepoch⟩ := bind_eq_ok_iff.mp h
  obtain ⟨hpos, rfl⟩ := Checked.div_eq_ok_iff.mp hdiv
  refine ⟨hpos, ?_⟩
  rw [← Except.ok.inj hepoch, UInt64.toNat_ofNat']
  exact Nat.mod_eq_of_lt ((Nat.div_le_self _ _).trans_lt slot.toNat_lt)

theorem exists_epochNumber {cfg : ScSlotConfig} (h : 0 < cfg.slotsPerEpoch.toNat) (slot : UInt64) :
    ∃ epoch, cfg.epochNumber slot = .ok epoch := by
  rw [ScSlotConfig.epochNumber, Checked.div_of_pos h]
  exact ⟨_, rfl⟩

/-- The start of a slot, in epochs of the Partner Chain. -/
theorem slotStart_div_epochDuration {cfg : ScSlotConfig} (hpos : 0 < cfg.epochDuration)
    {epoch : ScEpochNumber} (hslot : cfg.epochNumber slot = .ok epoch) :
    slot.toNat * cfg.slotDuration.toNat / cfg.epochDuration = epoch.toNat := by
  rw [ScSlotConfig.epochDuration] at hpos ⊢
  rw [(epochNumber_eq_ok hslot).2]
  exact Nat.mul_div_mul_right _ _ (Nat.pos_of_mul_pos_left hpos)

/-- When the boundaries of Cardano epochs are boundaries of Partner Chain epochs, every slot of an
epoch is in the Cardano epoch of its start. -/
theorem timestampToMainchainEpoch_slot {provider : ProviderConfig}
    (hpos : 0 < provider.scSlotConfig.epochDuration)
    (hduration : provider.scSlotConfig.epochDuration ∣
      provider.mcEpochConfig.epochDurationMillis.toNat)
    (hbefore : provider.scSlotConfig.epochDuration ∣
      provider.mcEpochConfig.firstEpochTimestampMillis.toNat) {epoch : ScEpochNumber}
    (hslot : provider.scSlotConfig.epochNumber slot = .ok epoch)
    (hfirst : provider.mcEpochConfig.firstEpochTimestampMillis.toNat ≤
      provider.scSlotConfig.epochDuration * epoch.toNat) :
    timestampToMainchainEpoch provider.mcEpochConfig
        (slot.toNat * provider.scSlotConfig.slotDuration.toNat) =
      timestampToMainchainEpoch provider.mcEpochConfig
        (provider.scSlotConfig.epochDuration * epoch.toNat) := by
  obtain ⟨epochs, hepochs⟩ := hduration
  obtain ⟨before, hbefore⟩ := hbefore
  have hstart := ScSlotConfig.epochStart_le_slotStart hslot
  rw [Nat.mul_comm epoch.toNat] at hstart
  refine timestampToMainchainEpoch_congr (hfirst.trans hstart) hfirst ?_
  -- both times are in the same epoch of the Partner Chain
  rw [hepochs, hbefore, ← Nat.div_div_eq_div_mul, ← Nat.div_div_eq_div_mul, Nat.sub_mul_div,
    Nat.sub_mul_div, slotStart_div_epochDuration hpos hslot, Nat.mul_div_cancel_left _ hpos]

theorem epochStartTime_of_slot (overflowChecks : Bool) {cfg : ScSlotConfig} {epoch : ScEpochNumber}
    (hslot : cfg.epochNumber slot = .ok epoch)
    (hfits : slot.toNat * cfg.slotDuration.toNat < 2 ^ 64) :
    cfg.epochStartTime overflowChecks epoch = .ok (some (cfg.epochDuration * epoch.toNat)) := by
  have hfirst : epoch.toNat * cfg.slotsPerEpoch.toNat < 2 ^ 64 := by
    rw [(epochNumber_eq_ok hslot).2]
    exact (Nat.div_mul_le_self _ _).trans_lt slot.toNat_lt
  have htime : epoch.toNat * cfg.slotsPerEpoch.toNat * cfg.slotDuration.toNat =
      cfg.epochDuration * epoch.toNat := by
    rw [ScSlotConfig.epochDuration, Nat.mul_assoc, Nat.mul_comm]
  have hlt : cfg.epochDuration * epoch.toNat < 2 ^ 64 := by
    rw [Nat.mul_comm]
    exact (ScSlotConfig.epochStart_le_slotStart hslot).trans_lt hfits
  rw [ScSlotConfig.epochStartTime, ScSlotConfig.firstSlotNumber, Checked.mulWith_of_lt _ hfirst,
    ok_bind, htime]
  exact congrArg Except.ok (if_pos hlt)

/-- An epoch of the Partner Chain one of whose slots starts in some Cardano epoch starts there
itself. -/
theorem firstEpoch_le_epochStart {provider : ProviderConfig}
    (hpos : 0 < provider.scSlotConfig.epochDuration)
    (hbefore : provider.scSlotConfig.epochDuration ∣
      provider.mcEpochConfig.firstEpochTimestampMillis.toNat) {epoch : ScEpochNumber}
    (hslot : provider.scSlotConfig.epochNumber slot = .ok epoch)
    (hfirst : provider.mcEpochConfig.firstEpochTimestampMillis.toNat ≤
      slot.toNat * provider.scSlotConfig.slotDuration.toNat) :
    provider.mcEpochConfig.firstEpochTimestampMillis.toNat ≤
      provider.scSlotConfig.epochDuration * epoch.toNat := by
  obtain ⟨before, hbefore⟩ := hbefore
  rw [hbefore] at hfirst ⊢
  refine Nat.mul_le_mul_left _ ?_
  rw [← slotStart_div_epochDuration hpos hslot, Nat.le_div_iff_mul_le hpos, Nat.mul_comm]
  exact hfirst

/-- When Cardano epochs start with epochs of the Partner Chain and last a whole number of them, all
slots of an epoch belong to one Cardano epoch, which is the one that is derived from their epoch. -/
theorem cardano_epoch_of_slots {ε : Type} (provider : ProviderConfig)
    (hpos : 0 < provider.scSlotConfig.epochDuration)
    (hduration : provider.mcEpochConfig.epochDurationMillis.toNat %
      provider.scSlotConfig.epochDuration = 0)
    (hbefore : provider.mcEpochConfig.firstEpochTimestampMillis.toNat %
      provider.scSlotConfig.epochDuration = 0) (slot : UInt64)
    (hfirst : provider.mcEpochConfig.firstEpochTimestampMillis.toNat ≤
      slot.toNat * provider.scSlotConfig.slotDuration.toNat)
    (hfits : slot.toNat * provider.scSlotConfig.slotDuration.toNat < 2 ^ 64) :
    ∃ epoch, provider.scSlotConfig.epochNumber slot = .ok epoch ∧
      (scEpochToMcEpoch provider epoch :
          Except (InherentProviderCreationError ε) McEpochNumber) =
        (timestampToMainchainEpoch provider.mcEpochConfig
          (slot.toNat * provider.scSlotConfig.slotDuration.toNat)).mapError
            .mcEpochDerivationError ∧
      ∀ other : UInt64, provider.scSlotConfig.epochNumber other = .ok epoch →
        provider.mcEpochConfig.firstEpochTimestampMillis.toNat ≤
          other.toNat * provider.scSlotConfig.slotDuration.toNat →
        timestampToMainchainEpoch provider.mcEpochConfig
            (other.toNat * provider.scSlotConfig.slotDuration.toNat) =
          timestampToMainchainEpoch provider.mcEpochConfig
            (slot.toNat * provider.scSlotConfig.slotDuration.toNat) := by
  replace hduration := Nat.dvd_of_mod_eq_zero hduration
  replace hbefore := Nat.dvd_of_mod_eq_zero hbefore
  obtain ⟨epoch, hepoch⟩ := exists_epochNumber (Nat.pos_of_mul_pos_right hpos) slot
  have hstart := firstEpoch_le_epochStart hpos hbefore hepoch hfirst
  have hslot := timestampToMainchainEpoch_slot hpos hduration hbefore hepoch hstart
  refine ⟨epoch, hepoch, ?_, fun other hother _ => ?_⟩
  · rw [scEpochToMcEpoch, epochStartTime_of_slot provider.overflowChecks hepoch hfits, hslot]
    rfl
  · rw [hslot]
    exact timestampToMainchainEpoch_slot hpos hduration hbefore hother hstart

/-- Slots of six seconds, and sixty of them in an epoch. -/
def sixMinuteEpochs (mcEpochConfig : MainchainEpochConfig) : ProviderConfig :=
  ⟨false, ⟨60, 6000⟩, mcEpochConfig⟩

theorem cardano_epoch_of_slots_preview :
    (scEpochToMcEpoch (sixMinuteEpochs preview) 5000000 :
        Except (InherentProviderCreationError Empty) McEpochNumber) =
      (timestampToMainchainEpoch preview 1800000000000).mapError .mcEpochDerivationError := by
  obtain ⟨epoch, hepoch, hmc, -⟩ := cardano_epoch_of_slots (sixMinuteEpochs preview) (by decide)
    (by decide) (by decide) 300000000 (by decide) (by decide)
  obtain rfl : 5000000 = epoch := Except.ok.inj hepoch
  exact hmc

/-- A Cardano epoch of the main network lasts 1200 epochs of six minutes and starts within one of
them. -/
theorem mainnet_epoch_starts_within_epoch :
    432000000 % (sixMinuteEpochs mainnet).scSlotConfig.epochDuration = 0 ∧
      (sixMinuteEpochs mainnet).scSlotConfig.epochNumber 266081820 = .ok 4434697 ∧
      (sixMinuteEpochs mainnet).scSlotConfig.epochNumber 266081849 = .ok 4434697 ∧
      timestampToMainchainEpoch mainnet (266081820 * 6000) = .ok 208 ∧
      timestampToMainchainEpoch mainnet (266081849 * 6000) = .ok 209 ∧
      (scEpochToMcEpoch (sixMinuteEpochs mainnet) 4434697 :
        Except (InherentProviderCreationError Empty) McEpochNumber) = .ok 208 :=
  ⟨by decide, by decide, by decide, by decide, by decide, rfl⟩

end PartnerChains.AuthoritySelection
