import PartnerChains.Algorithm.CandidatesCache
import PartnerChains.Verification.Committee.Correctness
import PartnerChains.Verification.Committee.SelectionEpoch

/-!
# Selection data are available when needed

A committee is selected at most two epochs after the current one. If the reference block is not
older than a Cardano epoch without these two epochs, then the selection is at most one Cardano
epoch ahead of it, while the data are two Cardano epochs back.
-/

namespace PartnerChains.AuthoritySelection

open Fallible

variable {ε : Type}

/-! ## Epochs and times -/

/-- Milliseconds. -/
def ScSlotConfig.epochDuration (cfg : ScSlotConfig) : ℕ :=
  cfg.slotsPerEpoch.toNat * cfg.slotDuration.toNat

theorem ScSlotConfig.epochStart_le_slotStart {cfg : ScSlotConfig} {slot : UInt64}
    {epoch : ScEpochNumber} (h : cfg.epochNumber slot = .ok epoch) :
    epoch.toNat * cfg.epochDuration ≤ slot.toNat * cfg.slotDuration.toNat := by
  obtain ⟨_, hdiv, hepoch⟩ := bind_eq_ok_iff.mp h
  obtain ⟨-, rfl⟩ := Checked.div_eq_ok_iff.mp hdiv
  rw [← Except.ok.inj hepoch, epochDuration, ← Nat.mul_assoc]
  refine Nat.mul_le_mul_right _ ?_
  refine (Nat.mul_le_mul_right _ ?_).trans (Nat.div_mul_le_self slot.toNat _)
  rw [UInt64.toNat_ofNat']
  exact Nat.mod_le _ _

theorem exists_time_of_scEpochToMcEpoch {provider : ProviderConfig} {epoch : ScEpochNumber}
    {mcEpoch : McEpochNumber}
    (h : (scEpochToMcEpoch provider epoch :
      Except (InherentProviderCreationError ε) McEpochNumber) = .ok mcEpoch) :
    ∃ time ≤ epoch.toNat * provider.scSlotConfig.epochDuration,
      timestampToMainchainEpoch provider.mcEpochConfig time = .ok mcEpoch := by
  obtain ⟨start, hstart, hmc⟩ := bind_eq_ok_iff.mp h
  obtain ⟨slot, hslot, hsome⟩ := bind_eq_ok_iff.mp (mapError_eq_ok_iff.mp hstart)
  have hsome := Except.ok.inj hsome
  split_ifs at hsome
  · subst hsome
    refine ⟨_, ?_, mapError_eq_ok_iff.mp hmc⟩
    rw [ScSlotConfig.epochDuration, ← Nat.mul_assoc]
    exact Nat.mul_le_mul_right _ (Checked.mulWith_le hslot)
  · subst hsome
    cases hmc

theorem epochsPassed_eq_ok {cfg : BlockSource.MainchainEpochConfig} {time passed : ℕ}
    (h : epochsPassed cfg time = .ok passed) :
    cfg.firstEpochTimestampMillis.toNat ≤ time ∧ cfg.epochDurationMillis.toNat ≠ 0 ∧
      (time - cfg.firstEpochTimestampMillis.toNat) / cfg.epochDurationMillis.toNat = passed := by
  rw [epochsPassed] at h
  split_ifs at h with hfirst
  obtain ⟨_, hdiv, h⟩ := bind_eq_ok_iff.mp h
  obtain ⟨hpos, rfl⟩ := Checked.div_eq_ok_iff.mp (mapError_eq_ok_iff.mp hdiv)
  split_ifs at h
  exact ⟨Nat.le_of_not_lt hfirst, hpos, Except.ok.inj h⟩

/-- Times that are at most a Cardano epoch apart are in the same or in neighbouring epochs. -/
theorem timestampToMainchainEpoch_le {cfg : BlockSource.MainchainEpochConfig} {time time' : ℕ}
    {epoch epoch' : McEpochNumber} (h : timestampToMainchainEpoch cfg time = .ok epoch)
    (h' : timestampToMainchainEpoch cfg time' = .ok epoch')
    (hle : time ≤ time' + cfg.epochDurationMillis.toNat) : epoch ≤ epoch' + 1 := by
  obtain ⟨passed, hpassed, hepoch⟩ := bind_eq_ok_iff.mp h
  obtain ⟨passed', hpassed', hepoch'⟩ := bind_eq_ok_iff.mp h'
  obtain ⟨-, hpos, rfl⟩ := epochsPassed_eq_ok hpassed
  obtain ⟨hfirst, -, rfl⟩ := epochsPassed_eq_ok hpassed'
  have hdiv : (time - cfg.firstEpochTimestampMillis.toNat) / cfg.epochDurationMillis.toNat ≤
      (time' - cfg.firstEpochTimestampMillis.toNat) / cfg.epochDurationMillis.toNat + 1 := by
    rw [← Nat.add_div_right _ (Nat.pos_of_ne_zero hpos)]
    exact Nat.div_le_div_right (by omega)
  rw [← Except.ok.inj hepoch, ← Except.ok.inj hepoch']
  exact Nat.le_trans (min_le_min_right _ (Nat.add_le_add_left hdiv _)) (by omega)

end PartnerChains.AuthoritySelection

namespace PartnerChains.Committee

open AuthoritySelection Fallible

variable {Member AccountId AuthorityKeys : Type} {maxValidators : ℕ}

/-! ## The next unset epoch -/

theorem toNat_add_one_le (epoch : ScEpochNumber) : (epoch + 1).toNat ≤ epoch.toNat + 1 := by
  rw [UInt64.toNat_add, UInt64.toNat_one]
  exact Nat.mod_le _ _

section NextUnset

variable {Inputs : Type} {cfg : Config Member AccountId AuthorityKeys Inputs maxValidators}
  {genesis : GenesisConfig Member} {trace : List (Event Member maxValidators)}
  {chain : Chain Member AccountId AuthorityKeys maxValidators}

/-- The committee in service is not ahead of the chain, and at most one more is stored. -/
theorem nextUnsetEpochNumber_le (run : (system cfg genesis).Run trace chain)
    (hnumber : 0 < chain.number) :
    (getNextUnsetEpochNumber chain.runtime.management).toNat ≤
      chain.currentEpochNumber.toNat + 2 := by
  classical
  have inv := invariant_run cfg genesis run
  have hle : chain.runtime.management.currentCommittee.epoch.toNat ≤
      chain.currentEpochNumber.toNat := inv.epoch_le hnumber
  have hcurrent := toNat_add_one_le chain.runtime.management.currentCommittee.epoch
  cases hnext : chain.runtime.management.nextCommittee with
  | none =>
      simp only [getNextUnsetEpochNumber, hnext, Option.map_none, Option.getD_none]
      omega
  | some next =>
      have hstored := toNat_add_one_le next.epoch
      rw [inv.next_epoch next hnext] at hstored
      simp only [getNextUnsetEpochNumber, hnext, Option.map_some, Option.getD_some,
        inv.next_epoch next hnext]
      omega

/-- A committee is selected at most two epochs after the epoch of the slot. -/
theorem exists_epoch_of_mcEpochForNextAriadneCidp {ε : Type} {provider : ProviderConfig}
    {slot : UInt64} {epoch : ScEpochNumber} {mcEpoch : McEpochNumber}
    (run : (system cfg genesis).Run trace chain)
    (hslot : provider.scSlotConfig.epochNumber slot = .ok epoch)
    (hafter : chain.currentEpochNumber ≤ epoch)
    (h : mcEpochForNextAriadneCidp provider chain.runtime.management slot =
      (.ok mcEpoch : Except (InherentProviderCreationError ε) McEpochNumber)) :
    ∃ forEpoch : ScEpochNumber, forEpoch.toNat ≤ epoch.toNat + 2 ∧
      (scEpochToMcEpoch provider forEpoch :
        Except (InherentProviderCreationError ε) McEpochNumber) = .ok mcEpoch := by
  rw [mcEpochForNextAriadneCidp] at h
  by_cases hunset : getNextUnsetEpochNumber chain.runtime.management = 1
  · simp only [if_pos hunset, hslot, mapError_ok, ok_bind] at h
    exact ⟨epoch, Nat.le_add_right _ _, h⟩
  · simp only [if_neg hunset, ok_bind] at h
    have hnumber : 0 < chain.number := by
      refine Nat.pos_of_ne_zero fun hzero => hunset ?_
      rw [eq_genesis_of_run run hzero]
      rfl
    have hle : chain.currentEpochNumber.toNat ≤ epoch.toNat := hafter
    exact ⟨_, (nextUnsetEpochNumber_le run hnumber).trans (by omega), h⟩

end NextUnset

/-! ## The provider -/

variable {ε : Type}

/-- The data source looks two epochs back, the epoch of the selection is at most one epoch ahead of
the reference block. -/
theorem dataEpoch_lt {source : AuthoritySelectionDataSource ε}
    (hoffset : ∀ epoch dataEpoch, source.dataEpoch epoch = .ok dataEpoch →
      Candidates.offsetDataEpoch epoch = .ok dataEpoch)
    {forEpoch dataEpoch reference : McEpochNumber} (h : source.dataEpoch forEpoch = .ok dataEpoch)
    (hle : forEpoch ≤ reference + 1) : dataEpoch < reference := by
  have hdata := hoffset forEpoch dataEpoch h
  rw [Candidates.offsetDataEpoch, Candidates.dataMcEpochOffset] at hdata
  by_cases htwo : 2 ≤ forEpoch
  · rw [if_pos htwo] at hdata
    rw [← Except.ok.inj hdata]
    exact (by omega : ∀ a b : ℕ, 2 ≤ a → a ≤ b + 1 → a - 2 < b) _ _ htwo hle
  · rw [if_neg htwo] at hdata
    cases hdata

theorem createInherent_of_inputs
    (cfg : Config Member AccountId AuthorityKeys AuthoritySelectionInputs maxValidators)
    (s : Storage Member maxValidators) (inputs : AuthoritySelectionInputs) :
    ∃ call, createInherent cfg s (.ok (some inputs)) = .ok call := by
  simp only [createInherent, inherentDataToAuthoritySelectionInputs, ok_bind]
  split_ifs
  · exact ⟨none, rfl⟩
  · split <;> exact ⟨_, rfl⟩

/-- On every parent that a run reaches, for every slot after it and every reference block that is
recent enough, the inputs are provided, and the inherent is created from them without a panic. -/
theorem selection_data_available
    (cfg : Config Member AccountId AuthorityKeys AuthoritySelectionInputs maxValidators)
    (provider : ProviderConfig) (genesis : GenesisConfig Member)
    (trace : List (Event Member maxValidators))
    (chain : Chain Member AccountId AuthorityKeys maxValidators)
    (run : (system cfg genesis).Run trace chain) (slot : UInt64) (epoch : ScEpochNumber)
    (hslot : provider.scSlotConfig.epochNumber slot = .ok epoch)
    (hafter : chain.currentEpochNumber ≤ epoch)
    (source : AuthoritySelectionDataSource ε)
    (hoffset : ∀ epoch dataEpoch, source.dataEpoch epoch = .ok dataEpoch →
      Candidates.offsetDataEpoch epoch = .ok dataEpoch)
    (reference : MainchainBlock)
    (hreference : timestampToMainchainEpoch provider.mcEpochConfig (reference.timestamp * 1000) =
      .ok reference.epoch)
    (hrecent : slot.toNat * provider.scSlotConfig.slotDuration.toNat +
        2 * provider.scSlotConfig.epochDuration ≤
      reference.timestamp * 1000 + provider.mcEpochConfig.epochDurationMillis.toNat)
    (data : Option AuthoritySelectionInputs)
    (hnew : AriadneInherentDataProvider.new provider chain.runtime.management slot source
      reference.epoch = .ok data) :
    (∃ inputs, data = some inputs) ∧
      ∀ s, ∃ call, createInherent cfg s (.ok data) = .ok call := by
  obtain ⟨forMcEpoch, hfor, hrest⟩ := bind_eq_ok_iff.mp hnew
  obtain ⟨dataEpoch, hdata, hbranch⟩ := bind_eq_ok_iff.mp hrest
  obtain ⟨forEpoch, hforEpoch, hmc⟩ :=
    exists_epoch_of_mcEpochForNextAriadneCidp run hslot hafter hfor
  obtain ⟨time, htime, hmcTime⟩ := exists_time_of_scEpochToMcEpoch hmc
  have hstart := ScSlotConfig.epochStart_le_slotStart hslot
  have hbound : time ≤
      reference.timestamp * 1000 + provider.mcEpochConfig.epochDurationMillis.toNat :=
    calc time ≤ (epoch.toNat + 2) * provider.scSlotConfig.epochDuration :=
          htime.trans (Nat.mul_le_mul_right _ hforEpoch)
      _ ≤ slot.toNat * provider.scSlotConfig.slotDuration.toNat +
          2 * provider.scSlotConfig.epochDuration := by
            rw [Nat.add_mul]
            exact Nat.add_le_add_right hstart _
      _ ≤ _ := hrecent
  have hlt := dataEpoch_lt hoffset (mapError_eq_ok_iff.mp hdata)
    (timestampToMainchainEpoch_le hmcTime hreference hbound)
  rw [if_pos hlt] at hbranch
  obtain ⟨inputs, -, hsome⟩ := bind_eq_ok_iff.mp hbranch
  obtain rfl := Except.ok.inj hsome
  exact ⟨⟨inputs, rfl⟩, fun s => createInherent_of_inputs cfg s inputs⟩

/-- A main chain on which nobody is registered, read two epochs back. -/
def noCandidatesTwoEpochsBack : AuthoritySelectionDataSource ℕ where
  getAriadneParameters _ _ _ := .ok ⟨⟨0, 1⟩, none⟩
  getCandidates _ _ := .ok []
  getEpochNonce _ := .ok none
  dataEpoch := Candidates.offsetDataEpoch

/-- The first block, in epoch 9, with the committee of epoch 10 stored. -/
def blockInEpochNine : Chain ℕ ℕ ℕ 4 :=
  { number := 1
    currentEpochNumber := 9
    runtime := { genesisRuntime keepingConfig oneAuthority with
      management :=
        { (genesisRuntime keepingConfig oneAuthority).management with
          currentCommittee := ⟨9, .truncateFrom 4 [1]⟩
          nextCommittee := some ⟨10, .truncateFrom 4 [1]⟩ } } }

theorem blockInEpochNine_run :
    ∃ trace, (system keepingConfig oneAuthority).Run trace blockInEpochNine := by
  have first : Step keepingConfig ⟨0, 0, genesisRuntime keepingConfig oneAuthority⟩ _ ⟨1, 9, _⟩ :=
    .initBlock (by decide) rfl
  have hset : dispatch keepingConfig .none (.set (.truncateFrom 4 [1]) 10 (.filled 32 0))
      { blockInEpochNine.runtime.management with nextCommittee := none } =
        .ok blockInEpochNine.runtime.management := rfl
  exact ⟨_, .step (.step (.start rfl) first) (Step.accept Nat.one_pos hset)⟩

/-- The last slots of a Cardano epoch: the committee of epoch 11, of the next Cardano epoch, is
selected with a reference block of the current one. -/
theorem selection_data_available_last_slot :
    ∃ data inputs, AriadneInherentDataProvider.new tenSlotEpochs
        blockInEpochNine.runtime.management 95 noCandidatesTwoEpochsBack 100 = .ok data ∧
      data = some inputs := by
  obtain ⟨trace, run⟩ := blockInEpochNine_run
  have hnew : AriadneInherentDataProvider.new tenSlotEpochs blockInEpochNine.runtime.management 95
      noCandidatesTwoEpochsBack 100 = .ok (some noInputs) := rfl
  obtain ⟨⟨inputs, hinputs⟩, -⟩ := selection_data_available keepingConfig tenSlotEpochs
    oneAuthority trace blockInEpochNine run 95 9 rfl (by decide) noCandidatesTwoEpochsBack
    (fun _ _ h => h) ⟨0, .filled 32 0, 100, 0, 15⟩ rfl (by decide) _ hnew
  exact ⟨_, inputs, hnew, hinputs⟩

end PartnerChains.Committee
