import PartnerChains.Algorithm.AriadneInherent
import PartnerChains.Model.CommitteeChain
import PartnerChains.Verification.Committee.Rotation

/-!
# The Cardano epoch of the selection inputs

The provider asks for the next unset epoch before the rotation, the pallet counts on from the
committee in service after it. Both agree, except where the provider takes the epoch from the
slot instead.
-/

namespace PartnerChains.Committee

open AuthoritySelection Fallible

variable {Member AccountId AuthorityKeys : Type} {maxValidators : ℕ}

section Prediction

variable {Inputs : Type} {cfg : Config Member AccountId AuthorityKeys Inputs maxValidators}

theorem eq_genesis_of_run {genesis : GenesisConfig Member}
    {trace : List (Event Member maxValidators)}
    {chain : Chain Member AccountId AuthorityKeys maxValidators}
    (run : (system cfg genesis).Run trace chain) (h : chain.number = 0) :
    chain = ⟨0, 0, genesisRuntime cfg genesis⟩ := by
  cases run with
  | start hinit => exact hinit
  | step _ hstep =>
      cases hstep with
      | initBlock _ _ => cases h
      | accept hnumber _ => exact absurd h hnumber.ne'
      | reject hnumber _ => exact absurd h hnumber.ne'

/-- The epoch that `set` is created for is the next unset one of the parent, except in the
first block. -/
theorem forEpochNumber_eq {blockNr : ℕ} {epoch : ScEpochNumber}
    {r r' : Runtime Member AccountId AuthorityKeys maxValidators} {inputs : Inputs}
    {validators : BoundedVec Member maxValidators} {forEpochNumber : ScEpochNumber}
    {hash : Bytes 32} (hinit : initializeBlock cfg blockNr epoch r = .ok r')
    (hcreate : createInherent cfg r'.management (.ok (some inputs)) =
      .ok (some (.set validators forEpochNumber hash))) :
    forEpochNumber =
      getNextUnsetEpochNumber (onInitialize blockNr epoch r.management) := by
  obtain ⟨r'', hok, hmanagement⟩ := initializeBlock_spec cfg blockNr epoch r
  obtain rfl : r'' = r' := Except.ok.inj (hok.symm.trans hinit)
  obtain ⟨hnone, rfl, -⟩ := createInherent_eq_set hcreate
  generalize onInitialize blockNr epoch r.management = s at hmanagement ⊢
  rw [hmanagement] at hnone ⊢
  cases hnext : s.nextCommittee with
  | none => simp [rotated_of_none hnext, getNextUnsetEpochNumber, hnext]
  | some next =>
      by_cases hlt : s.currentCommittee.epoch < epoch
      · simp [rotated_of_lt hnext hlt, getNextUnsetEpochNumber, hnext]
      · rw [rotated_of_le (UInt64.not_lt.mp hlt), hnext] at hnone
        cases hnone

end Prediction

/-! ## Agreement -/

variable {ε : Type}

/-- The next unset epoch of the parent is not 1; or the epoch of the slot starts in the same
Cardano epoch as the epoch after it, for the first block, or as epoch 1, for a later one. -/
def SelectionEpochsAgree (ε : Type) (provider : ProviderConfig)
    (parent : Chain Member AccountId AuthorityKeys maxValidators) (epoch : ScEpochNumber) : Prop :=
  getNextUnsetEpochNumber parent.runtime.management ≠ 1 ∨
    (scEpochToMcEpoch provider epoch : Except (InherentProviderCreationError ε) McEpochNumber) =
      scEpochToMcEpoch provider (if parent.number = 0 then epoch + 1 else 1)

theorem provider_new_eq_some {provider : ProviderConfig}
    {parent : Storage Member maxValidators} {slot : UInt64}
    {source : AuthoritySelectionDataSource ε} {mcReferenceEpoch : McEpochNumber}
    {inputs : AuthoritySelectionInputs}
    (h : AriadneInherentDataProvider.new provider parent slot source mcReferenceEpoch =
      .ok (some inputs)) :
    ∃ mcEpoch, mcEpochForNextAriadneCidp provider parent slot =
        (.ok mcEpoch : Except (InherentProviderCreationError ε) McEpochNumber) ∧
      AuthoritySelectionInputs.fromMcData source mcEpoch
        parent.mainChainScriptsConfiguration = .ok inputs := by
  obtain ⟨mcEpoch, hmcEpoch, hrest⟩ := bind_eq_ok_iff.mp h
  obtain ⟨dataEpoch, -, hdata⟩ := bind_eq_ok_iff.mp hrest
  split_ifs at hdata
  · obtain ⟨data, hfrom, hsome⟩ := bind_eq_ok_iff.mp hdata
    obtain rfl : data = inputs := by simpa using hsome
    exact ⟨mcEpoch, hmcEpoch, mapError_eq_ok_iff.mp hfrom⟩
  · cases hdata

/-- In every block of every run in which `set` is created from provided inputs, the inputs were
collected for the Cardano epoch in which the epoch of the committee starts, exactly when the
special case for genesis does not matter. -/
theorem selection_epoch_iff_agree
    (cfg : Config Member AccountId AuthorityKeys AuthoritySelectionInputs maxValidators)
    (provider : ProviderConfig) (genesis : GenesisConfig Member)
    (trace : List (Event Member maxValidators))
    (chain : Chain Member AccountId AuthorityKeys maxValidators)
    (run : (system cfg genesis).Run trace chain) (slot : UInt64) (epoch : ScEpochNumber)
    (hslot : provider.scSlotConfig.epochNumber slot = .ok epoch)
    (source : AuthoritySelectionDataSource ε) (mcReferenceEpoch : McEpochNumber)
    (inputs : AuthoritySelectionInputs)
    (hnew : AriadneInherentDataProvider.new provider chain.runtime.management slot source
      mcReferenceEpoch = .ok (some inputs))
    (runtime : Runtime Member AccountId AuthorityKeys maxValidators)
    (hinit : initializeBlock cfg (chain.number + 1) epoch chain.runtime = .ok runtime)
    (validators : BoundedVec Member maxValidators) (forEpochNumber : ScEpochNumber)
    (hash : Bytes 32)
    (hcreate : createInherent cfg runtime.management (.ok (some inputs)) =
      .ok (some (.set validators forEpochNumber hash))) :
    ∃ mcEpoch, mcEpochForNextAriadneCidp provider chain.runtime.management slot =
        (.ok mcEpoch : Except (InherentProviderCreationError ε) McEpochNumber) ∧
      AuthoritySelectionInputs.fromMcData source mcEpoch
        chain.runtime.management.mainChainScriptsConfiguration = .ok inputs ∧
      ((scEpochToMcEpoch provider forEpochNumber :
          Except (InherentProviderCreationError ε) McEpochNumber) = .ok mcEpoch ↔
        SelectionEpochsAgree ε provider chain epoch) := by
  obtain ⟨mcEpoch, hmcEpoch, hfrom⟩ := provider_new_eq_some hnew
  refine ⟨mcEpoch, hmcEpoch, hfrom, ?_⟩
  have hfor := forEpochNumber_eq hinit hcreate
  unfold SelectionEpochsAgree
  rw [mcEpochForNextAriadneCidp] at hmcEpoch
  by_cases hunset : getNextUnsetEpochNumber chain.runtime.management = 1
  · simp only [if_pos hunset, hslot, mapError_ok, ok_bind] at hmcEpoch
    rw [hmcEpoch]
    have hnumber : forEpochNumber = if chain.number = 0 then epoch + 1 else 1 := by
      split_ifs with hzero
      · rw [hfor, eq_genesis_of_run run hzero]
        rfl
      · rw [hfor, onInitialize, if_neg (by omega), hunset]
    rw [hnumber]
    simp [hunset, eq_comm]
  · simp only [if_neg hunset, ok_bind] at hmcEpoch
    have hnumber : chain.number ≠ 0 := by
      intro hzero
      rw [eq_genesis_of_run run hzero] at hunset
      exact hunset rfl
    rw [onInitialize, if_neg (by omega)] at hfor
    rw [hfor]
    simp [hunset, hmcEpoch]

/-! ### A chain that starts in the last epoch of a Cardano epoch -/

/-- Epochs of ten slots of a second each, of which ten make a Cardano epoch. -/
def tenSlotEpochs : ProviderConfig where
  overflowChecks := true
  scSlotConfig := ⟨10, 1000⟩
  mcEpochConfig := ⟨100000, 1000, 0, 100, 0⟩

/-- A main chain on which nobody is registered. -/
def noCandidates : AuthoritySelectionDataSource Unit where
  getAriadneParameters _ _ _ := .ok ⟨⟨0, 1⟩, none⟩
  getCandidates _ _ := .ok []
  getEpochNonce _ := .ok none
  dataEpoch epoch := .ok (epoch - 2)

def noInputs : AuthoritySelectionInputs := ⟨⟨0, 1⟩, [], [], []⟩

def keepingConfig : Config ℕ ℕ ℕ AuthoritySelectionInputs 4 :=
  ⟨fun _ _ => none, id, id, fun _ => .filled 32 0, fun _ => true⟩

def oneAuthority : GenesisConfig ℕ := ⟨[1], ⟨"", .filled 28 0, .filled 28 0⟩⟩

/-- A first block in slot 35: epochs 3 and 4 start in the same Cardano epoch. -/
theorem selection_epoch_iff_agree_slot_35 :
    ∃ mcEpoch, mcEpochForNextAriadneCidp tenSlotEpochs
        (genesisRuntime keepingConfig oneAuthority).management 35 =
          (.ok mcEpoch : Except (InherentProviderCreationError Unit) McEpochNumber) ∧
      (scEpochToMcEpoch tenSlotEpochs 4 :
        Except (InherentProviderCreationError Unit) McEpochNumber) = .ok mcEpoch := by
  obtain ⟨mcEpoch, hmcEpoch, -, hiff⟩ := selection_epoch_iff_agree keepingConfig tenSlotEpochs
    oneAuthority [] ⟨0, 0, genesisRuntime keepingConfig oneAuthority⟩ (.start rfl) 35 3 rfl
    noCandidates 100 noInputs rfl _ rfl _ 4 _ rfl
  exact ⟨mcEpoch, hmcEpoch, hiff.mpr (.inr rfl)⟩

/-- A first block in slot 95: the inputs of Cardano epoch 100 are used for the committee of
epoch 10, which starts in Cardano epoch 101. -/
theorem first_block_selects_from_the_previous_epoch :
    (system keepingConfig oneAuthority).Run []
        ⟨0, 0, genesisRuntime keepingConfig oneAuthority⟩ ∧
      AriadneInherentDataProvider.new tenSlotEpochs
        (genesisRuntime keepingConfig oneAuthority).management 95 noCandidates 100 =
          .ok (some noInputs) ∧
      (∃ runtime, initializeBlock keepingConfig 1 9 (genesisRuntime keepingConfig oneAuthority) =
          .ok runtime ∧
        createInherent keepingConfig runtime.management (.ok (some noInputs)) =
          .ok (some (.set (.truncateFrom 4 [1]) 10 (.filled 32 0)))) ∧
      mcEpochForNextAriadneCidp tenSlotEpochs
        (genesisRuntime keepingConfig oneAuthority).management 95 =
          (.ok 100 : Except (InherentProviderCreationError Unit) McEpochNumber) ∧
      (scEpochToMcEpoch tenSlotEpochs 10 :
        Except (InherentProviderCreationError Unit) McEpochNumber) = .ok 101 :=
  ⟨.start rfl, rfl, ⟨_, rfl, rfl⟩, rfl, rfl⟩

end PartnerChains.Committee
