import PartnerChains.Verification.Epochs.Times

/-!
# Slots of Cardano epochs

An epoch is taken to have as many slots as it has seconds. Slots and times lead to the same epochs
as long as that is the number of slots that fit into an epoch.
-/

namespace PartnerChains.AuthoritySelection

open BlockSource (MainchainEpochConfig timestampToMainchainSlotNumber)
open Fallible

variable {overflowChecks : Bool} {cfg : MainchainEpochConfig}

/-! ## What slots and times should satisfy -/

/-- A time whose epoch and slot are in range. -/
structure InRange (cfg : MainchainEpochConfig) (time : ℕ) : Prop where
  first : cfg.firstEpochTimestampMillis.toNat ≤ time
  fits : time < 2 ^ 64
  passed : (time - cfg.firstEpochTimestampMillis.toNat) / cfg.epochDurationMillis.toNat < 2 ^ 31
  epoch : cfg.firstEpochNumber.toNat + (time - cfg.firstEpochTimestampMillis.toNat) /
    cfg.epochDurationMillis.toNat < 2 ^ 32
  slot : cfg.firstSlotNumber.toNat + (time - cfg.firstEpochTimestampMillis.toNat) /
    cfg.slotDurationMillis.toNat < 2 ^ 64

/-- Slots and times give the same epochs, and epochs consist of the slots from their first one to
the first one of the next epoch. -/
structure SlotsAgree (overflowChecks : Bool) (cfg : MainchainEpochConfig) : Prop where
  times : ∀ time, InRange cfg time → ∃ slot,
    timestampToMainchainSlotNumber overflowChecks cfg time = .ok (some slot) ∧
    epochForSlot overflowChecks cfg slot = timestampToMainchainEpoch cfg time
  slots : ∀ epoch slot : ℕ, cfg.firstEpochNumber.toNat ≤ epoch → epoch + 1 < 2 ^ 32 →
    (epoch + 1 - cfg.firstEpochNumber.toNat) * slotsPerEpoch cfg + cfg.firstSlotNumber.toNat <
      2 ^ 64 →
    cfg.firstSlotNumber.toNat ≤ slot → slot < 2 ^ 64 → ∃ low high : ℕ,
      firstSlotOfEpoch overflowChecks cfg epoch = .ok low ∧
      firstSlotOfEpoch overflowChecks cfg (epoch + 1) = .ok high ∧
      (epochForSlot overflowChecks cfg slot = .ok epoch ↔ low ≤ slot ∧ slot < high)
  noDivisionByZero : ∀ slot, cfg.firstSlotNumber.toNat ≤ slot →
    epochForSlot overflowChecks cfg slot ≠ .error (.panic ⟨"attempt to divide by zero"⟩)

/-! ## The computed values -/

theorem firstSlotOfEpoch_of_lt (overflowChecks : Bool) {epoch : ℕ}
    (hfirst : cfg.firstEpochNumber.toNat ≤ epoch)
    (hfits : (epoch - cfg.firstEpochNumber.toNat) * slotsPerEpoch cfg +
      cfg.firstSlotNumber.toNat < 2 ^ 64) :
    firstSlotOfEpoch overflowChecks cfg epoch =
      .ok ((epoch - cfg.firstEpochNumber.toNat) * slotsPerEpoch cfg +
        cfg.firstSlotNumber.toNat) := by
  rw [firstSlotOfEpoch, if_neg (Nat.not_lt.mpr hfirst),
    Checked.mulWith_of_lt _ (lt_of_le_of_lt (Nat.le_add_right _ _) hfits)]
  exact congrArg (Except.mapError _) (Checked.addWith_of_lt _ hfits)

variable {slot : ℕ}

theorem epochForSlot_of_pos (hpos : 0 < slotsPerEpoch cfg)
    (hfirst : cfg.firstSlotNumber.toNat ≤ slot) :
    epochForSlot overflowChecks cfg slot =
      if (slot - cfg.firstSlotNumber.toNat) / slotsPerEpoch cfg < 2 ^ 32 then
        (Checked.addWith overflowChecks 32 cfg.firstEpochNumber.toNat
          ((slot - cfg.firstSlotNumber.toNat) / slotsPerEpoch cfg)).mapError .panic
      else .error .epochTooBig := by
  rw [epochForSlot, if_neg (Nat.not_lt.mpr hfirst), Checked.div_of_pos hpos]
  rfl

theorem epochForSlot_of_zero (hzero : slotsPerEpoch cfg = 0)
    (hfirst : cfg.firstSlotNumber.toNat ≤ slot) :
    epochForSlot overflowChecks cfg slot = .error (.panic ⟨"attempt to divide by zero"⟩) := by
  rw [epochForSlot, if_neg (Nat.not_lt.mpr hfirst), hzero]
  rfl

/-- An epoch of a slot is an epoch in range, whether or not sums wrap around. -/
theorem epochForSlot_eq_ok_iff (hpos : 0 < slotsPerEpoch cfg) {epoch slot : ℕ}
    (hepoch : cfg.firstEpochNumber.toNat ≤ epoch) (hfits : epoch < 2 ^ 32)
    (hfirst : cfg.firstSlotNumber.toNat ≤ slot) :
    epochForSlot overflowChecks cfg slot = .ok epoch ↔
      (slot - cfg.firstSlotNumber.toNat) / slotsPerEpoch cfg =
        epoch - cfg.firstEpochNumber.toNat := by
  rw [epochForSlot_of_pos hpos hfirst]
  generalize (slot - cfg.firstSlotNumber.toNat) / slotsPerEpoch cfg = passed
  constructor
  · intro h
    split_ifs at h with hsmall
    obtain ⟨-, hmod⟩ := Checked.addWith_eq_ok_iff.mp (mapError_eq_ok_iff.mp h)
    omega
  · rintro rfl
    have hsum : cfg.firstEpochNumber.toNat + (epoch - cfg.firstEpochNumber.toNat) = epoch := by
      omega
    rw [if_pos (by omega), Checked.addWith_of_lt _ (by omega), hsum]
    rfl

variable {time : ℕ}

theorem timestampToMainchainSlotNumber_of_inRange (overflowChecks : Bool)
    (hslot : 0 < cfg.slotDurationMillis.toNat) (h : InRange cfg time) :
    timestampToMainchainSlotNumber overflowChecks cfg time =
      .ok (some (cfg.firstSlotNumber.toNat + (time - cfg.firstEpochTimestampMillis.toNat) /
        cfg.slotDurationMillis.toNat)) := by
  rw [timestampToMainchainSlotNumber, if_neg (Nat.not_lt.mpr h.first), Checked.div_of_pos hslot,
    ok_bind, Checked.addWith_of_lt _ h.slot]
  rfl

theorem timestampToMainchainEpoch_of_inRange (hduration : 0 < cfg.epochDurationMillis.toNat)
    (h : InRange cfg time) :
    timestampToMainchainEpoch cfg time =
      .ok (cfg.firstEpochNumber.toNat + (time - cfg.firstEpochTimestampMillis.toNat) /
        cfg.epochDurationMillis.toNat) := by
  refine timestampToMainchainEpoch_eq_ok_iff.mpr ⟨_, epochsPassed_eq_ok_iff.mpr
    ⟨h.first, hduration.ne', rfl, h.passed⟩, ?_⟩
  have hepoch := h.epoch
  omega

/-! ## Slots in an epoch -/

/-- The epoch of a time in range agrees with that of its slot exactly when both divisions of the
number of slots give the same. -/
theorem epochForSlot_eq_epoch_iff (hpos : 0 < slotsPerEpoch cfg)
    (hduration : 0 < cfg.epochDurationMillis.toNat)
    (hdvd : cfg.slotDurationMillis.toNat ∣ cfg.epochDurationMillis.toNat) (h : InRange cfg time) :
    epochForSlot overflowChecks cfg (cfg.firstSlotNumber.toNat +
        (time - cfg.firstEpochTimestampMillis.toNat) / cfg.slotDurationMillis.toNat) =
      timestampToMainchainEpoch cfg time ↔
    (time - cfg.firstEpochTimestampMillis.toNat) / cfg.slotDurationMillis.toNat /
        slotsPerEpoch cfg =
      (time - cfg.firstEpochTimestampMillis.toNat) / cfg.slotDurationMillis.toNat /
        (cfg.epochDurationMillis.toNat / cfg.slotDurationMillis.toNat) := by
  rw [timestampToMainchainEpoch_of_inRange hduration h,
    epochForSlot_eq_ok_iff hpos (Nat.le_add_right _ _) h.epoch (Nat.le_add_right _ _),
    Nat.add_sub_cancel_left, Nat.add_sub_cancel_left, Nat.div_div_eq_div_mul _ _ (_ / _),
    Nat.mul_div_cancel' hdvd]

theorem InRange.of_le {time time' : ℕ} (h : InRange cfg time')
    (hfirst : cfg.firstEpochTimestampMillis.toNat ≤ time) (hle : time ≤ time') :
    InRange cfg time := by
  have hsub : time - cfg.firstEpochTimestampMillis.toNat ≤
      time' - cfg.firstEpochTimestampMillis.toNat := Nat.sub_le_sub_right hle _
  refine ⟨hfirst, hle.trans_lt h.fits, ?_, ?_, ?_⟩
  · exact (Nat.div_le_div_right hsub).trans_lt h.passed
  · exact (Nat.add_le_add_left (Nat.div_le_div_right hsub) _).trans_lt h.epoch
  · exact (Nat.add_le_add_left (Nat.div_le_div_right hsub) _).trans_lt h.slot

/-- The time of the first slot that is in the second epoch by one of the two counts of slots. -/
def firstDisagreement (cfg : MainchainEpochConfig) : ℕ :=
  cfg.firstEpochTimestampMillis.toNat +
    min (slotsPerEpoch cfg) (cfg.epochDurationMillis.toNat / cfg.slotDurationMillis.toNat) *
      cfg.slotDurationMillis.toNat

theorem slotsPerEpoch_pos_of_not_inRange
    (h : ¬ InRange cfg (firstDisagreement cfg)) : 0 < slotsPerEpoch cfg := by
  refine Nat.pos_of_ne_zero fun hzero => h ?_
  have hfirst : firstDisagreement cfg = cfg.firstEpochTimestampMillis.toNat := by
    rw [firstDisagreement, hzero, Nat.zero_min, Nat.zero_mul, Nat.add_zero]
  rw [hfirst]
  refine ⟨le_rfl, cfg.firstEpochTimestampMillis.toNat_lt, ?_, ?_, ?_⟩
  · simp
  · simpa using cfg.firstEpochNumber.toNat_lt
  · simpa using cfg.firstSlotNumber.toNat_lt

/-- Before the first disagreement every slot is in the first epoch. -/
theorem div_eq_of_lt_firstDisagreement (hfirst : cfg.firstEpochTimestampMillis.toNat ≤ time)
    (hlt : time < firstDisagreement cfg) :
    (time - cfg.firstEpochTimestampMillis.toNat) / cfg.slotDurationMillis.toNat /
        slotsPerEpoch cfg = 0 ∧
      (time - cfg.firstEpochTimestampMillis.toNat) / cfg.slotDurationMillis.toNat /
        (cfg.epochDurationMillis.toNat / cfg.slotDurationMillis.toNat) = 0 := by
  have hsub : time - cfg.firstEpochTimestampMillis.toNat <
      min (slotsPerEpoch cfg) (cfg.epochDurationMillis.toNat / cfg.slotDurationMillis.toNat) *
        cfg.slotDurationMillis.toNat := by
    rw [firstDisagreement] at hlt
    omega
  have hslots := Nat.div_lt_of_lt_mul (Nat.mul_comm _ _ ▸ hsub)
  exact ⟨Nat.div_eq_of_lt (hslots.trans_le (min_le_left _ _)),
    Nat.div_eq_of_lt (hslots.trans_le (min_le_right _ _))⟩

theorem slotsPerEpoch_eq_of_firstDisagreement (hpos : 0 < slotsPerEpoch cfg)
    (hslots : 0 < cfg.epochDurationMillis.toNat / cfg.slotDurationMillis.toNat)
    (hslot : 0 < cfg.slotDurationMillis.toNat)
    (h : (firstDisagreement cfg - cfg.firstEpochTimestampMillis.toNat) /
        cfg.slotDurationMillis.toNat / slotsPerEpoch cfg =
      (firstDisagreement cfg - cfg.firstEpochTimestampMillis.toNat) /
        cfg.slotDurationMillis.toNat /
        (cfg.epochDurationMillis.toNat / cfg.slotDurationMillis.toNat)) :
    slotsPerEpoch cfg = cfg.epochDurationMillis.toNat / cfg.slotDurationMillis.toNat := by
  rw [firstDisagreement, Nat.add_sub_cancel_left, Nat.mul_div_cancel _ hslot] at h
  rcases Nat.lt_trichotomy (slotsPerEpoch cfg)
    (cfg.epochDurationMillis.toNat / cfg.slotDurationMillis.toNat) with hlt | heq | hgt
  · rw [min_eq_left hlt.le, Nat.div_self hpos, Nat.div_eq_of_lt hlt] at h
    cases h
  · exact heq
  · rw [min_eq_right hgt.le, Nat.div_self hslots, Nat.div_eq_of_lt hgt] at h
    cases h

theorem slots_of_epoch (hpos : 0 < slotsPerEpoch cfg) {epoch slot : ℕ}
    (hepoch : cfg.firstEpochNumber.toNat ≤ epoch) (hnext : epoch + 1 < 2 ^ 32)
    (hfits : (epoch + 1 - cfg.firstEpochNumber.toNat) * slotsPerEpoch cfg +
      cfg.firstSlotNumber.toNat < 2 ^ 64) (hslot : cfg.firstSlotNumber.toNat ≤ slot) :
    ∃ low high : ℕ, firstSlotOfEpoch overflowChecks cfg epoch = .ok low ∧
      firstSlotOfEpoch overflowChecks cfg (epoch + 1) = .ok high ∧
      (epochForSlot overflowChecks cfg slot = .ok epoch ↔ low ≤ slot ∧ slot < high) := by
  have hsucc : epoch + 1 - cfg.firstEpochNumber.toNat =
      epoch - cfg.firstEpochNumber.toNat + 1 := by omega
  have hlow : (epoch - cfg.firstEpochNumber.toNat) * slotsPerEpoch cfg +
      cfg.firstSlotNumber.toNat < 2 ^ 64 := by
    rw [hsucc, Nat.add_mul] at hfits
    omega
  refine ⟨_, _, firstSlotOfEpoch_of_lt overflowChecks hepoch hlow,
    firstSlotOfEpoch_of_lt overflowChecks (hepoch.trans (Nat.le_succ epoch)) hfits, ?_⟩
  rw [epochForSlot_eq_ok_iff hpos hepoch (by omega) hslot, hsucc, Nat.div_eq_iff hpos,
    Nat.add_one_mul]
  generalize (epoch - cfg.firstEpochNumber.toNat) * slotsPerEpoch cfg = start
  omega

theorem epochForSlot_ne_divideByZero (overflowChecks : Bool) (hpos : 0 < slotsPerEpoch cfg)
    (hfirst : cfg.firstSlotNumber.toNat ≤ slot) :
    epochForSlot overflowChecks cfg slot ≠ .error (.panic ⟨"attempt to divide by zero"⟩) := by
  rw [epochForSlot_of_pos hpos hfirst]
  split_ifs
  · intro hzero
    rw [Checked.addWith] at hzero
    split_ifs at hzero
    · rw [Checked.add, Checked.narrow] at hzero
      split_ifs at hzero
      · cases hzero
      · simp [Except.mapError] at hzero
    · cases hzero
  · simp

/-- Slots and times agree exactly when an epoch has as many slots as it has seconds, or no time in
range is far enough from the first epoch to tell the difference. -/
theorem slotsAgree_iff (overflowChecks : Bool) (cfg : MainchainEpochConfig)
    (hslot : 0 < cfg.slotDurationMillis.toNat)
    (hdvd : cfg.slotDurationMillis.toNat ∣ cfg.epochDurationMillis.toNat) :
    SlotsAgree overflowChecks cfg ↔
      0 < cfg.epochDurationMillis.toNat ∧
        (slotsPerEpoch cfg = cfg.epochDurationMillis.toNat / cfg.slotDurationMillis.toNat ∨
          ¬ InRange cfg (firstDisagreement cfg)) := by
  constructor
  · intro h
    have hpos : 0 < slotsPerEpoch cfg := Nat.pos_of_ne_zero fun hzero =>
      h.noDivisionByZero _ le_rfl (epochForSlot_of_zero hzero le_rfl)
    have hduration : 0 < cfg.epochDurationMillis.toNat :=
      Nat.pos_of_ne_zero fun hzero => by simp [slotsPerEpoch, hzero] at hpos
    refine ⟨hduration, or_iff_not_imp_right.mpr fun hrange => ?_⟩
    replace hrange := not_not.mp hrange
    obtain ⟨slot, hnumber, hepoch⟩ := h.times _ hrange
    rw [timestampToMainchainSlotNumber_of_inRange overflowChecks hslot hrange] at hnumber
    obtain rfl := Option.some.inj (Except.ok.inj hnumber)
    exact slotsPerEpoch_eq_of_firstDisagreement hpos
      (Nat.div_pos (Nat.le_of_dvd hduration hdvd) hslot) hslot
      ((epochForSlot_eq_epoch_iff hpos hduration hdvd hrange).mp hepoch)
  · rintro ⟨hduration, hcount⟩
    have hpos : 0 < slotsPerEpoch cfg := by
      rcases hcount with heq | hrange
      · rw [heq]
        exact Nat.div_pos (Nat.le_of_dvd hduration hdvd) hslot
      · exact slotsPerEpoch_pos_of_not_inRange hrange
    refine ⟨fun time htime => ?_, fun epoch slot hepoch hnext hfits hfirst _ => ?_, ?_⟩
    · refine ⟨_, timestampToMainchainSlotNumber_of_inRange overflowChecks hslot htime,
        (epochForSlot_eq_epoch_iff hpos hduration hdvd htime).mpr ?_⟩
      rcases hcount with heq | hrange
      · rw [heq]
      · have hlt : time < firstDisagreement cfg := by
          by_contra hle
          exact hrange (htime.of_le (Nat.le_add_right _ _) (Nat.le_of_not_lt hle))
        obtain ⟨hcode, hexact⟩ := div_eq_of_lt_firstDisagreement htime.first hlt
        rw [hcode, hexact]
    · exact slots_of_epoch hpos hepoch hnext hfits hfirst
    · exact fun slot hfirst => epochForSlot_ne_divideByZero overflowChecks hpos hfirst

theorem slotsAgree_iff_mainnet : SlotsAgree false mainnet :=
  (slotsAgree_iff false mainnet (by decide) (by decide)).mpr ⟨by decide, .inl (by decide)⟩

/-- A network with five slots of two seconds in an epoch. -/
def twoSecondSlots : MainchainEpochConfig := ⟨10000, 2000, 0, 0, 0⟩

/-- After ten seconds the second epoch begins, with slot 5, which is counted to the first one. -/
theorem twoSecondSlots_disagree :
    InRange twoSecondSlots 10000 ∧
      timestampToMainchainSlotNumber false twoSecondSlots 10000 = .ok (some 5) ∧
      epochForSlot false twoSecondSlots 5 = .ok 0 ∧
      timestampToMainchainEpoch twoSecondSlots 10000 = .ok 1 ∧
      ¬ SlotsAgree false twoSecondSlots := by
  have hrange : InRange twoSecondSlots 10000 :=
    ⟨by decide, by decide, by decide, by decide, by decide⟩
  have hslot : timestampToMainchainSlotNumber false twoSecondSlots 10000 = .ok (some 5) := rfl
  refine ⟨hrange, hslot, by decide, by decide, fun h => ?_⟩
  obtain ⟨slot, hnumber, hepoch⟩ := h.times 10000 hrange
  obtain rfl := Option.some.inj (Except.ok.inj (hslot.symm.trans hnumber))
  exact absurd hepoch (by decide)

end PartnerChains.AuthoritySelection
