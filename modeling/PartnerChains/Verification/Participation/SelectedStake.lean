import PartnerChains.Verification.Participation.DataMissing

/-!
# Producers are paid from the epoch of their blocks, not from the epoch of their selection

Every logged producer comes from the genesis committee or from a committee that was selected for
an epoch not after that of the block. The stake that a pool had when it was selected is enough for
the payment of its blocks exactly when it was selected for the Cardano epoch of each of them.
-/

namespace PartnerChains.Committee

variable {Member AccountId AuthorityKeys Inputs : Type} {maxValidators : ℕ}
  {cfg : Config Member AccountId AuthorityKeys Inputs maxValidators}
  {s : Storage Member maxValidators}

/-- Nothing is created while the next committee is stored; otherwise inputs are needed. -/
theorem createInherent_eq_ok {inputs : Option Inputs} {call : Option (Call Member maxValidators)}
    (h : createInherent cfg s (.ok inputs) = .ok call) :
    (s.nextCommittee.isSome ∧ call = none) ∨
      ∃ given validators hash, inputs = some given ∧ s.nextCommittee = none ∧
        call = some (.set validators (s.currentCommittee.epoch + 1) hash) ∧
        validators = (cfg.selectAuthorities given (s.currentCommittee.epoch + 1)).getD
          s.currentCommittee.committee := by
  cases hnext : s.nextCommittee with
  | some next =>
      rw [createInherent, if_pos (by rw [hnext]; rfl)] at h
      exact .inl ⟨rfl, (Except.ok.inj h).symm⟩
  | none =>
      rw [createInherent, if_neg (by rw [hnext]; exact Bool.false_ne_true)] at h
      cases inputs with
      | none => cases h
      | some given =>
          right
          simp only [inherentDataToAuthoritySelectionInputs, Fallible.ok_bind] at h
          cases hselect : cfg.selectAuthorities given (s.currentCommittee.epoch + 1) with
          | none =>
              simp only [hselect, Except.ok.injEq] at h
              exact ⟨given, _, _, rfl, rfl, h.symm, by rw [hselect]; rfl⟩
          | some selected =>
              simp only [hselect, Except.ok.injEq] at h
              exact ⟨given, _, _, rfl, rfl, h.symm, by rw [hselect]; rfl⟩

end PartnerChains.Committee

namespace PartnerChains.Participation

open AuthoritySelection Fallible
open BlockParticipation (BlockParticipationDataSource BlockParticipationInherentDataProvider
  IterationOrder Answers dataEpoch? group? blocksIn count_groups countBlocksByEpochAndProducer
  exists_countBlocksByEpochAndProducer countBlocksByEpochAndProducer_eq_ok
  InherentDataCreationError)
open Committee (GenesisConfig rotated onInitialize)

variable {Member AccountId AuthorityKeys Inputs Producer Delegator : Type} {maxValidators : ℕ}
  {setup : Setup Member AccountId AuthorityKeys Inputs Producer Delegator maxValidators}
  {genesis : GenesisConfig Member} {trace : List (Event Member)} {event : Event Member}
  {chain next : Chain Member AccountId AuthorityKeys Producer maxValidators}

/-! ## One block -/

theorem produceBlock_eq_ok {block : Block Inputs}
    (h : produceBlock setup chain block = .ok (event, next)) :
    ∃ epoch forMcEpoch dataEpoch runtime call management production,
      (∀ last ∈ chain.slot, last < block.slot) ∧
      setup.provider.scSlotConfig.epochNumber block.slot = .ok epoch ∧
      (mcEpochForNextAriadneCidp setup.provider chain.committee.runtime.management block.slot :
        Except (InherentProviderCreationError Empty) McEpochNumber) = .ok forMcEpoch ∧
      Candidates.offsetDataEpoch forMcEpoch = .ok dataEpoch ∧
      Committee.initializeBlock setup.committee (chain.committee.number + 1) epoch
        chain.committee.runtime = .ok runtime ∧
      Committee.createInherent setup.committee runtime.management (.ok block.inputs) = .ok call ∧
      dispatchInherent setup call runtime.management = .ok management ∧
      ProductionLog.executeBlock setup.search (chain.committee.number + 1)
        ⟨block.slot.toNat, (Authors.getAuthor setup.usizeBits chain.committee.runtime.management
          block.slot).map setup.authorFrom, block.shouldReleaseData⟩
        (.new block.shouldReleaseData chain.production) chain.production = .ok production ∧
      event = ⟨block.slot, selection setup
        (selectionBasis chain.committee.runtime.management epoch) dataEpoch runtime.management
        block.inputs⟩ ∧
      next = ⟨some block.slot, ⟨chain.committee.number + 1, epoch, { runtime with management }⟩,
        production⟩ := by
  rw [produceBlock] at h
  split_ifs at h with hslot
  simp only [bind_eq_ok_iff, mapError_eq_ok_iff] at h
  obtain ⟨epoch, hepoch, forMcEpoch, hfor, dataEpoch, hdata, runtime, hinit, call, hcall,
    management, hdispatch, production, hexecute, hresult⟩ := h
  obtain ⟨rfl, rfl⟩ := Prod.mk.inj (Except.ok.inj hresult)
  refine ⟨epoch, forMcEpoch, dataEpoch, runtime, call, management, production,
    fun last hlast => ?_, hepoch, hfor, hdata, hinit, hcall, hdispatch, hexecute, rfl, rfl⟩
  rw [Option.mem_def.mp hlast] at hslot
  simpa using hslot

/-! ## Selection for an epoch -/

/-- Cardano epochs start and end with epochs of the Partner Chain. -/
structure Aligned (provider : ProviderConfig) : Prop where
  duration : ∃ epochs, provider.mcEpochConfig.epochDurationMillis.toNat =
    provider.scSlotConfig.epochDuration * epochs
  first : ∃ epochs, provider.mcEpochConfig.firstEpochTimestampMillis.toNat =
    provider.scSlotConfig.epochDuration * epochs

/-- They start in the same Cardano epoch. -/
def SameCardanoEpoch (provider : ProviderConfig) (epoch epoch' : ScEpochNumber) : Prop :=
  ∃ mcEpoch, (scEpochToMcEpoch provider epoch :
      Except (InherentProviderCreationError Empty) McEpochNumber) = .ok mcEpoch ∧
    (scEpochToMcEpoch provider epoch' :
      Except (InherentProviderCreationError Empty) McEpochNumber) = .ok mcEpoch

/-- The data epoch of the Cardano epoch in which an epoch starts. -/
def StartsWithData (provider : ProviderConfig) (epoch : ScEpochNumber)
    (dataEpoch : McEpochNumber) : Prop :=
  ∃ mcEpoch, (scEpochToMcEpoch provider epoch :
      Except (InherentProviderCreationError Empty) McEpochNumber) = .ok mcEpoch ∧
    Candidates.offsetDataEpoch mcEpoch = .ok dataEpoch

theorem offsetDataEpoch_inj {a b d : ℕ} (ha : Candidates.offsetDataEpoch a = .ok d)
    (hb : Candidates.offsetDataEpoch b = .ok d) : a = b := by
  rw [Candidates.offsetDataEpoch] at ha hb
  split_ifs at ha hb
  have hsub : a - Candidates.dataMcEpochOffset = b - Candidates.dataMcEpochOffset :=
    (Except.ok.inj ha).trans (Except.ok.inj hb).symm
  omega

variable {dataEpoch : McEpochNumber}

theorem StartsWithData.sameCardanoEpoch {provider : ProviderConfig} {epoch epoch' : ScEpochNumber}
    (h : StartsWithData provider epoch dataEpoch) (h' : StartsWithData provider epoch' dataEpoch) :
    SameCardanoEpoch provider epoch epoch' := by
  obtain ⟨mcEpoch, hmc, hdata⟩ := h
  obtain ⟨mcEpoch', hmc', hdata'⟩ := h'
  exact ⟨mcEpoch, hmc, offsetDataEpoch_inj hdata' hdata ▸ hmc'⟩

theorem SameCardanoEpoch.dataEpoch_eq {provider : ProviderConfig} {epoch epoch' : ScEpochNumber}
    (h : SameCardanoEpoch provider epoch epoch') {dataEpoch dataEpoch' : McEpochNumber}
    (hdata : StartsWithData provider epoch dataEpoch)
    (hdata' : StartsWithData provider epoch' dataEpoch') : dataEpoch = dataEpoch' := by
  obtain ⟨mcEpoch, hmc, hmc'⟩ := h
  obtain ⟨_, hother, hoffset⟩ := hdata
  obtain rfl := Except.ok.inj (hmc.symm.trans hother)
  obtain ⟨_, hother', hoffset'⟩ := hdata'
  obtain rfl := Except.ok.inj (hmc'.symm.trans hother')
  exact Except.ok.inj (hoffset.symm.trans hoffset')

/-- In an aligned configuration the data of a slot are those of the start of its epoch. -/
theorem Aligned.startsWithData (haligned : Aligned setup.provider) {slot : UInt64}
    {epoch : ScEpochNumber} (hslot : setup.provider.scSlotConfig.epochNumber slot = .ok epoch)
    (h : dataEpoch? setup.participation slot.toNat = some dataEpoch) :
    StartsWithData setup.provider epoch dataEpoch := by
  rw [dataEpoch?] at h
  split_ifs at h with hfits
  obtain ⟨mcEpoch, hmc, hdata⟩ := Option.bind_eq_some_iff.mp h
  rw [toOption_eq_some_iff] at hmc hdata
  refine ⟨mcEpoch, ?_, hdata⟩
  obtain ⟨epochs, hduration⟩ := haligned.duration
  obtain ⟨passed, hpassed, -⟩ := timestampToMainchainEpoch_eq_ok_iff.mp hmc
  obtain ⟨hfirst, hpos, -⟩ := epochsPassed_eq_ok_iff.mp hpassed
  have hduration_pos : 0 < setup.provider.scSlotConfig.epochDuration := by
    refine Nat.pos_of_ne_zero fun hzero => hpos ?_
    rw [Setup.participation, hduration, hzero, Nat.zero_mul]
  have hstart := firstEpoch_le_epochStart hduration_pos haligned.first hslot hfirst
  rw [scEpochToMcEpoch, epochStartTime_of_slot setup.provider.overflowChecks hslot hfits]
  refine mapError_eq_ok_iff.mpr ?_
  rw [← timestampToMainchainEpoch_slot hduration_pos haligned.duration haligned.first hslot hstart]
  exact hmc

theorem mem_selection_iff {basis : ScEpochNumber} {s : Committee.Storage Member maxValidators}
    {inputs : Option Inputs} {record : SelectionRecord Member} :
    record ∈ selection setup basis dataEpoch s inputs ↔
      s.nextCommittee = none ∧ ∃ given validators, inputs = some given ∧
        setup.committee.selectAuthorities given (s.currentCommittee.epoch + 1) =
          some validators ∧
        record = ⟨s.currentCommittee.epoch + 1, basis, dataEpoch, validators.toList⟩ := by
  rw [Option.mem_def, selection]
  cases hnext : s.nextCommittee with
  | some committee => simp
  | none =>
      cases inputs with
      | none => simp
      | some given =>
          cases hselect : setup.committee.selectAuthorities given
              (s.currentCommittee.epoch + 1) with
          | none => simp [hselect]
          | some validators => simp [hselect, eq_comm]

/-- A committee is selected from the data of its basis, and this is the epoch that it is selected
for, unless the committees have the epoch of genesis. -/
theorem selection_of_produceBlock {block : Block Inputs}
    (h : produceBlock setup chain block = .ok (event, next)) {record : SelectionRecord Member}
    (hrecord : record ∈ event.selection) :
    StartsWithData setup.provider record.basis record.dataEpoch ∧
      (chain.committee.number ≠ 0 → record.forEpoch ≠ 1 → record.basis = record.forEpoch) := by
  obtain ⟨epoch, forMcEpoch, dataEpoch, runtime, call, -, -, -, hepoch, hfor, hdata, hinit,
    -, -, -, rfl, -⟩ := produceBlock_eq_ok h
  obtain ⟨hnone, given, validators, -, hselect, rfl⟩ := mem_selection_iff.mp hrecord
  refine ⟨⟨forMcEpoch, ?_, hdata⟩, fun hnumber hone => ?_⟩
  · simp only [mcEpochForNextAriadneCidp, hepoch, mapError_ok] at hfor
    rw [selectionBasis]
    split_ifs at hfor ⊢ <;> exact hfor
  · have hcreate : Committee.createInherent setup.committee runtime.management
        (.ok (some given)) = .ok (some (.set validators
          (runtime.management.currentCommittee.epoch + 1)
          (setup.committee.inputsHash given))) := by
      simp [Committee.createInherent, hnone, Committee.inherentDataToAuthoritySelectionInputs,
        hselect]
    have hunset := Committee.forEpochNumber_eq hinit hcreate
    rw [onInitialize, if_neg (by omega)] at hunset
    exact (if_neg (hunset ▸ hone)).trans hunset.symm

/-- Along a run, every selection is from the data of its basis, which is the epoch it is for, except
in the first block and for epoch 1. -/
structure SelectionsBased
    (setup : Setup Member AccountId AuthorityKeys Inputs Producer Delegator maxValidators)
    (trace : List (Event Member))
    (chain : Chain Member AccountId AuthorityKeys Producer maxValidators) : Prop where
  number : chain.committee.number = trace.length
  data : ∀ event ∈ trace, ∀ record ∈ event.selection,
    StartsWithData setup.provider record.basis record.dataEpoch
  basis : ∀ event ∈ trace.tail, ∀ record ∈ event.selection,
    record.forEpoch ≠ 1 → record.basis = record.forEpoch

theorem SelectionsBased.step (h : SelectionsBased setup trace chain)
    (hstep : (system setup genesis).Step chain event next) :
    SelectionsBased setup (trace ++ [event]) next := by
  obtain ⟨block, hblock⟩ := hstep
  refine ⟨?_, fun event' hevent record hrecord => ?_, fun event' hevent record hrecord hone => ?_⟩
  · obtain ⟨-, -, -, -, -, -, -, -, -, -, -, -, -, -, -, -, rfl⟩ := produceBlock_eq_ok hblock
    simp [h.number]
  · rcases List.mem_append.mp hevent with hold | hnew
    · exact h.data event' hold record hrecord
    · obtain rfl := List.mem_singleton.mp hnew
      exact (selection_of_produceBlock hblock hrecord).1
  · cases trace with
    | nil => cases hevent
    | cons first rest =>
        rcases List.mem_append.mp hevent with hold | hnew
        · exact h.basis event' hold record hrecord hone
        · obtain rfl := List.mem_singleton.mp hnew
          exact (selection_of_produceBlock hblock hrecord).2 (by simp [h.number]) hone

theorem selectionsBased_run (run : (system setup genesis).Run trace chain) :
    SelectionsBased setup trace chain := by
  refine run.invariant (P := SelectionsBased setup) ?_ ?_
  · rintro chain rfl
    exact ⟨rfl, by simp, by simp⟩
  · intro trace chain event next h hstep
    exact h.step hstep

/-! ## Where producers come from -/

/-- A member of the genesis committee, or of a committee that was selected for an epoch up to a
bound. -/
def Enlisted (genesis : GenesisConfig Member) (trace : List (Event Member)) (bound : ℕ)
    (member : Member) : Prop :=
  member ∈ genesis.initialAuthorities ∨
    ∃ event ∈ trace, ∃ record ∈ event.selection,
      record.forEpoch.toNat ≤ bound ∧ member ∈ record.members

theorem Enlisted.mono {trace' : List (Event Member)} {bound bound' : ℕ} {member : Member}
    (h : Enlisted genesis trace bound member) (htrace : trace ⊆ trace') (hbound : bound ≤ bound') :
    Enlisted genesis trace' bound' member := by
  refine h.imp_right ?_
  rintro ⟨event, hevent, record, hrecord, hle, hmember⟩
  exact ⟨event, htrace hevent, record, hrecord, hle.trans hbound, hmember⟩

/-- The committee in service was selected for an epoch that has started, the stored one for the
epoch after that. -/
structure CommitteesEnlisted (genesis : GenesisConfig Member) (trace : List (Event Member))
    (epoch : ScEpochNumber) (s : Committee.Storage Member maxValidators) : Prop where
  started : s.currentCommittee.epoch.toNat ≤ epoch.toNat
  current : ∀ member ∈ s.currentCommittee.committee.toList,
    Enlisted genesis trace s.currentCommittee.epoch.toNat member
  follows : ∀ committee ∈ s.nextCommittee, committee.epoch = s.currentCommittee.epoch + 1
  next : ∀ committee ∈ s.nextCommittee, ∀ member ∈ committee.committee.toList,
    Enlisted genesis trace (s.currentCommittee.epoch.toNat + 1) member

variable {s : Committee.Storage Member maxValidators} {epoch epoch' : ScEpochNumber}

theorem CommitteesEnlisted.onInitialize (h : CommitteesEnlisted genesis trace epoch s)
    (hle : epoch.toNat ≤ epoch'.toNat) {number : ℕ} (hfirst : number = 1 → s.nextCommittee = none) :
    CommitteesEnlisted genesis trace epoch' (onInitialize number epoch' s) := by
  rw [Committee.onInitialize]
  split_ifs with hnumber
  · refine ⟨le_rfl, fun member hmember => ?_, ?_, ?_⟩
    · exact (h.current member hmember).mono (List.Subset.refl _) (h.started.trans hle)
    all_goals simp [hfirst hnumber]
  · exact { h with started := h.started.trans hle }

theorem CommitteesEnlisted.rotated (h : CommitteesEnlisted genesis trace epoch s) :
    CommitteesEnlisted genesis trace epoch (rotated epoch s) := by
  cases hnext : s.nextCommittee with
  | none =>
      rw [Committee.rotated_of_none hnext]
      exact h
  | some committee =>
      by_cases hlt : s.currentCommittee.epoch < epoch
      · rw [Committee.rotated_of_lt hnext hlt]
        -- an epoch that is followed by another one is not the last one
        have hepoch : committee.epoch.toNat = s.currentCommittee.epoch.toNat + 1 := by
          rw [h.follows committee hnext, UInt64.toNat_add]
          exact Nat.mod_eq_of_lt
            ((Nat.succ_le_of_lt (UInt64.lt_iff_toNat_lt.mp hlt)).trans_lt epoch.toNat_lt)
        refine ⟨hepoch ▸ UInt64.lt_iff_toNat_lt.mp hlt, hepoch ▸ h.next committee hnext, ?_, ?_⟩ <;>
          simp
      · rw [Committee.rotated_of_le (UInt64.not_lt.mp hlt)]
        exact h

/-- A stored committee is one that was selected, or the one in service. -/
theorem CommitteesEnlisted.dispatch (h : CommitteesEnlisted genesis trace epoch s)
    {inputs : Option Inputs} {call : Option (Committee.Call Member maxValidators)}
    (hcall : Committee.createInherent setup.committee s (.ok inputs) = .ok call)
    {management : Committee.Storage Member maxValidators}
    (hdispatch : dispatchInherent setup call s = .ok management) (slot : UInt64)
    (basis : ScEpochNumber) (dataEpoch : McEpochNumber) :
    CommitteesEnlisted genesis (trace ++ [⟨slot, selection setup basis dataEpoch s inputs⟩]) epoch
      management := by
  have htrace := List.subset_append_left trace [⟨slot, selection setup basis dataEpoch s inputs⟩]
  have hcurrent := fun member hmember => (h.current member hmember).mono htrace le_rfl
  rcases Committee.createInherent_eq_ok hcall with ⟨-, rfl⟩ |
    ⟨given, validators, hash, rfl, hnone, rfl, hvalidators⟩
  · obtain rfl := Except.ok.inj hdispatch
    exact ⟨h.started, hcurrent, h.follows, fun committee hnext member hmember =>
      (h.next committee hnext member hmember).mono htrace le_rfl⟩
  · have hset : Committee.set .none validators (s.currentCommittee.epoch + 1) s =
        .ok management := hdispatch
    obtain ⟨-, -, -, rfl⟩ := Committee.set_eq_ok_iff.mp hset
    refine ⟨h.started, hcurrent, fun committee hcommittee => ?_, ?_⟩
    · obtain rfl := Option.some.inj hcommittee
      rfl
    rintro committee hcommittee member hmember
    obtain rfl := Option.some.inj hcommittee
    cases hselect : setup.committee.selectAuthorities given (s.currentCommittee.epoch + 1) with
    | none =>
        rw [hselect, Option.getD_none] at hvalidators
        subst hvalidators
        exact (h.current member hmember).mono htrace (Nat.le_succ _)
    | some selected =>
        rw [hselect, Option.getD_some] at hvalidators
        subst hvalidators
        refine .inr ⟨_, List.mem_append_right _ (List.mem_singleton_self _),
          ⟨s.currentCommittee.epoch + 1, basis, dataEpoch, validators.toList⟩,
          mem_selection_iff.mpr ⟨hnone, given, validators, rfl, hselect, rfl⟩, ?_, hmember⟩
        rw [UInt64.toNat_add]
        exact Nat.mod_le _ _

/-- Every logged block is by an enlisted member, for an epoch up to that of the block. -/
def LogEnlisted
    (setup : Setup Member AccountId AuthorityKeys Inputs Producer Delegator maxValidators)
    (genesis : GenesisConfig Member) (trace : List (Event Member))
    (log : List (ProductionLog.Slot × Producer)) : Prop :=
  ∀ entry ∈ log, ∃ (slot : UInt64) (epoch : ScEpochNumber) (member : Member),
    entry = (slot.toNat, setup.authorFrom member) ∧
    setup.provider.scSlotConfig.epochNumber slot = .ok epoch ∧
    Enlisted genesis trace epoch.toNat member

theorem mem_of_getAuthor {member : Member} {slot : UInt64}
    (h : Authors.getAuthor setup.usizeBits s slot = some member) :
    member ∈ s.currentCommittee.committee.toList := by
  rw [Authors.getAuthor, Committee.getCurrentAuthorityRoundRobin] at h
  split_ifs at h
  exact List.mem_of_getElem? h

/-- A block leaves entries of the log and adds its own. -/
theorem mem_log_of_executeBlock {search : PartitionPoint (ProductionLog.Slot × Producer)}
    {number : ℕ} {block : ProductionLog.Block Producer} {release : Option ProductionLog.Slot}
    {parent r : ProductionLog.Runtime Producer}
    (hpending : parent.productionLog.currentProducer = none)
    (h : ProductionLog.executeBlock search number block (.new release parent) parent = .ok r) :
    r.productionLog.currentProducer = none ∧ ∀ entry ∈ r.productionLog.log,
      entry ∈ parent.productionLog.log ∨
        ∃ author, block.author = some author ∧ (block.slot, author) = entry := by
  obtain ⟨appended, happend, h⟩ := bind_eq_ok_iff.mp h
  obtain ⟨noted, hnote, h⟩ := bind_eq_ok_iff.mp h
  obtain rfl := Except.ok.inj h
  obtain ⟨hlog, hproducer⟩ := ProductionLog.dispatchAppend_eq_ok happend
  have hnoted : noted.productionLog.currentProducer = block.author ∧
      noted.productionLog.log.Sublist parent.productionLog.log := by
    rw [← hproducer hpending, ← hlog]
    cases release with
    | none =>
        obtain rfl := Except.ok.inj hnote
        exact ⟨rfl, List.Sublist.refl _⟩
    | some upToSlot =>
        simp only [ProductionLog.ParticipationInherentDataProvider.new,
          ProductionLog.ParticipationInherentDataProvider.upToSlot?,
          ProductionLog.dispatchNoteProcessing, ProductionLog.noteProcessing] at hnote
        split_ifs at hnote
        obtain rfl := Except.ok.inj hnote
        exact ⟨rfl, List.drop_sublist _ _⟩
  obtain ⟨hfinal, hnone⟩ := ProductionLog.onFinalize_spec block.slot noted.productionLog
  refine ⟨hnone, fun entry hentry => ?_⟩
  rw [hfinal, hnoted.1, List.mem_append] at hentry
  rcases hentry with hold | hnew
  · exact .inl (hnoted.2.subset hold)
  · exact .inr (Option.map_eq_some_iff.mp (Option.mem_toList.mp hnew))

/-- Whoever is in a committee or in the log comes from genesis or from a selection. -/
structure AllEnlisted
    (setup : Setup Member AccountId AuthorityKeys Inputs Producer Delegator maxValidators)
    (genesis : GenesisConfig Member) (trace : List (Event Member))
    (chain : Chain Member AccountId AuthorityKeys Producer maxValidators) : Prop where
  committees : CommitteesEnlisted genesis trace chain.committee.currentEpochNumber
    chain.committee.runtime.management
  unset : chain.committee.number = 0 → chain.committee.runtime.management.nextCommittee = none
  epoch : ∀ slot epoch, (∀ last ∈ chain.slot, last < slot) →
    setup.provider.scSlotConfig.epochNumber slot = .ok epoch →
    chain.committee.currentEpochNumber.toNat ≤ epoch.toNat
  log : LogEnlisted setup genesis trace chain.production.productionLog.log
  finalized : chain.production.productionLog.currentProducer = none

theorem allEnlisted_genesis : AllEnlisted setup genesis []
    (genesisChain setup genesis :
      Chain Member AccountId AuthorityKeys Producer maxValidators) where
  committees :=
    { started := le_rfl
      current := fun _ hmember => .inl (List.mem_of_mem_take hmember)
      follows := fun _ hnext => by cases hnext
      next := fun _ hnext => by cases hnext }
  unset _ := rfl
  epoch _ _ _ _ := Nat.zero_le _
  log _ hentry := by cases hentry
  finalized := rfl

theorem epochNumber_mono {cfg : ScSlotConfig} {slot slot' : UInt64} (hlt : slot < slot')
    (h : cfg.epochNumber slot = .ok epoch) (h' : cfg.epochNumber slot' = .ok epoch') :
    epoch.toNat ≤ epoch'.toNat := by
  rw [(epochNumber_eq_ok h).2, (epochNumber_eq_ok h').2]
  exact Nat.div_le_div_right (UInt64.lt_iff_toNat_lt.mp hlt).le

theorem AllEnlisted.step (h : AllEnlisted setup genesis trace chain)
    (hstep : (system setup genesis).Step chain event next) :
    AllEnlisted setup genesis (trace ++ [event]) next := by
  obtain ⟨block, hblock⟩ := hstep
  obtain ⟨epoch, forMcEpoch, dataEpoch, runtime, call, management, production, hslot, hepoch, -, -,
    hinit, hcall, hdispatch, hexecute, rfl, rfl⟩ := produceBlock_eq_ok hblock
  obtain ⟨runtime', hok, hmanagement⟩ := Committee.initializeBlock_spec setup.committee
    (chain.committee.number + 1) epoch chain.committee.runtime
  obtain rfl : runtime' = runtime := Except.ok.inj (hok.symm.trans hinit)
  have hle := h.epoch block.slot epoch hslot hepoch
  have hrotated : CommitteesEnlisted genesis trace epoch runtime'.management := by
    rw [hmanagement]
    exact (h.committees.onInitialize hle fun hone => h.unset (Nat.succ.inj hone)).rotated
  have htrace := List.subset_append_left trace
    [⟨block.slot, selection setup (selectionBasis chain.committee.runtime.management epoch)
      dataEpoch runtime'.management block.inputs⟩]
  obtain ⟨hfinalized, hlog⟩ := mem_log_of_executeBlock h.finalized hexecute
  refine ⟨hrotated.dispatch hcall hdispatch block.slot _ dataEpoch, by simp,
    fun slot epoch' hlater hepoch' => epochNumber_mono (hlater _ rfl) hepoch hepoch',
    fun entry hentry => ?_, hfinalized⟩
  rcases hlog entry hentry with hold | ⟨author, hauthor, rfl⟩
  · obtain ⟨slot, epoch', member, hentry, hepoch', henlisted⟩ := h.log entry hold
    exact ⟨slot, epoch', member, hentry, hepoch', henlisted.mono htrace le_rfl⟩
  · -- the author is in the committee in service at the parent
    obtain ⟨member, hmember, rfl⟩ := Option.map_eq_some_iff.mp hauthor
    have henlisted := h.committees.current member (mem_of_getAuthor hmember)
    exact ⟨block.slot, epoch, member, rfl, hepoch,
      henlisted.mono htrace (h.committees.started.trans hle)⟩

theorem allEnlisted_run (run : (system setup genesis).Run trace chain) :
    AllEnlisted setup genesis trace chain := by
  refine run.invariant (P := AllEnlisted setup genesis) ?_ ?_
  · rintro chain rfl
    exact allEnlisted_genesis
  · intro trace chain event next h hstep
    exact h.step hstep

/-! ## Payment -/

section Payment

variable [LinearOrder Producer] {ε : Type}

/-- Whatever the stake is, as long as the pools that were selected had stake in the epochs they
were selected from, no data are missing. -/
def NeverMissing [LinearOrder Delegator] (ε : Type)
    (setup : Setup Member AccountId AuthorityKeys Inputs Producer Delegator maxValidators)
    (trace : List (Event Member)) (api : BlockParticipation.Api Producer)
    (slot : BlockParticipation.Slot) : Prop :=
  ∀ hasStake, (∀ epoch pool, SelectedFrom setup trace epoch pool → hasStake epoch pool) →
    ∀ source : BlockParticipationDataSource ε, Answers source hasStake →
      ∀ (order : IterationOrder Producer) epoch producer,
        (BlockParticipationInherentDataProvider.new setup.participation order source (some api)
          slot : Except _ (BlockParticipationInherentDataProvider Producer Delegator)) ≠
            .error (.dataMissing epoch producer)

/-- Every block has a data epoch, and no counter overflows where this is checked. -/
def Countable
    (setup : Setup Member AccountId AuthorityKeys Inputs Producer Delegator maxValidators)
    (blocks : List (BlockParticipation.Slot × Producer)) : Prop :=
  (∀ block ∈ blocks, (dataEpoch? setup.participation block.1).isSome) ∧
    (setup.provider.overflowChecks = true →
      ∀ group, blocksIn setup.participation blocks group < 2 ^ 32)

theorem countable_iff {blocks : List (BlockParticipation.Slot × Producer)} :
    Countable setup blocks ↔ ∃ counts,
      (countBlocksByEpochAndProducer setup.participation blocks :
        Except (InherentDataCreationError ε Producer) _) = .ok counts := by
  have hgroup : ∀ block, (group? setup.participation block).isSome =
      (dataEpoch? setup.participation block.1).isSome := fun block => Option.isSome_map
  simp only [Countable, ← hgroup, ← count_groups]
  constructor
  · rintro ⟨hsome, hsmall⟩
    exact exists_countBlocksByEpochAndProducer hsome hsmall
  · rintro ⟨counts, hcounts⟩
    obtain ⟨hsome, -, hsmall⟩ := countBlocksByEpochAndProducer_eq_ok hcounts
    exact ⟨hsome, hsmall⟩

/-- Each released block of a pool is in an epoch that starts in the same Cardano epoch as one from
the data of which the pool was selected. -/
def SelectedForReleased
    (setup : Setup Member AccountId AuthorityKeys Inputs Producer Delegator maxValidators)
    (trace : List (Event Member)) (released : List (BlockParticipation.Slot × Producer)) : Prop :=
  ∀ (slot : UInt64) epoch producer pool, (slot.toNat, producer) ∈ released →
    setup.provider.scSlotConfig.epochNumber slot = .ok epoch →
    setup.asCardanoSpo producer = some pool →
    ∃ event ∈ trace, ∃ record ∈ event.selection,
      SameCardanoEpoch setup.provider record.basis epoch ∧
      ∃ member ∈ record.members, setup.asCardanoSpo (setup.authorFrom member) = some pool

open Classical in
/-- A data source for any stake. -/
noncomputable def stakeSource (hasStake : McEpochNumber → MainchainKeyHash → Prop) :
    BlockParticipationDataSource ε := fun epoch pools =>
  .ok (OrderedMap.empty.insertAll ((pools.dedup.filter fun pool => hasStake epoch pool).map
    fun pool => (pool, ⟨1, .empty⟩)))

theorem answers_stakeSource (hasStake : McEpochNumber → MainchainKeyHash → Prop) :
    Answers (stakeSource hasStake : BlockParticipationDataSource ε) hasStake := by
  classical
  intro epoch pools distribution hdistribution pool
  obtain rfl := Except.ok.inj hdistribution
  have hnodup : (((pools.dedup.filter fun pool => decide (hasStake epoch pool)).map
      fun pool => (pool, (⟨1, .empty⟩ : PoolDelegation))).map Prod.fst).Nodup := by
    simpa [Function.comp_def] using pools.nodup_dedup.filter _
  rw [OrderedMap.get?_insertAll hnodup, OrderedMap.get?_empty, Option.or_none,
    OrderedMap.lookupEntry_isSome_iff]
  simp

theorem neverMissing_iff [LinearOrder Delegator] {api : BlockParticipation.Api Producer}
    {slot : BlockParticipation.Slot} :
    NeverMissing ε setup trace api slot ↔
      ∀ upToSlot, api.shouldReleaseData slot = some upToSlot →
        Countable setup (api.blocksProducedUpToSlot upToSlot) →
        ∀ block ∈ api.blocksProducedUpToSlot upToSlot, ∀ epoch pool,
          dataEpoch? setup.participation block.1 = some epoch →
          setup.asCardanoSpo block.2 = some pool → SelectedFrom setup trace epoch pool := by
  constructor
  · intro hnever upToSlot hrelease hcountable block hblock epoch pool hepoch hpool
    by_contra hselected
    obtain ⟨counts, hcounts⟩ := countable_iff.mp hcountable
    obtain ⟨epoch', producer, hmissing⟩ := BlockParticipation.exists_new_eq_dataMissing
      (answers_stakeSource (SelectedFrom setup trace)) (fun _ _ => ⟨_, rfl⟩) hrelease hcounts
      hblock hepoch hpool hselected .ascending
    exact hnever _ (fun _ _ h => h) _ (answers_stakeSource _) .ascending epoch' producer hmissing
  · intro heach hasStake hstake source hsource order epoch producer hmissing
    obtain ⟨upToSlot, counts, hrelease, hcounts⟩ :=
      BlockParticipation.counted_of_dataMissing hmissing
    obtain ⟨block, hblock, pool, hepoch, hpool, hnone⟩ :=
      BlockParticipation.exists_of_new_eq_dataMissing hsource hrelease hcounts hmissing
    exact hnone (hstake epoch pool (heach upToSlot hrelease (countable_iff.mpr ⟨counts, hcounts⟩)
      block hblock epoch pool hepoch hpool))

/-- Along a run of an aligned configuration the data epochs of blocks and of selections are equal
exactly when their epochs start in the same Cardano epoch. -/
theorem selectedForReleased_iff (haligned : Aligned setup.provider)
    (run : (system setup genesis).Run trace chain)
    {released : List (BlockParticipation.Slot × Producer)}
    (hreleased : released ⊆ chain.production.productionLog.log)
    (hcountable : Countable setup released) :
    SelectedForReleased setup trace released ↔
      ∀ block ∈ released, ∀ epoch pool, dataEpoch? setup.participation block.1 = some epoch →
        setup.asCardanoSpo block.2 = some pool → SelectedFrom setup trace epoch pool := by
  have hdata := (selectionsBased_run run).data
  constructor
  · intro hselected block hblock dataEpoch pool hepoch hpool
    obtain ⟨slot, epoch, member, rfl, hslot, -⟩ :=
      (allEnlisted_run run).log block (hreleased hblock)
    obtain ⟨event, hevent, record, hrecord, hsame, hmember⟩ :=
      hselected slot epoch _ pool hblock hslot hpool
    exact ⟨event, hevent, record, hrecord, hsame.dataEpoch_eq (hdata event hevent record hrecord)
      (haligned.startsWithData hslot hepoch), hmember⟩
  · intro heach slot epoch producer pool hblock hslot hpool
    obtain ⟨dataEpoch, hepoch⟩ := Option.isSome_iff_exists.mp (hcountable.1 _ hblock)
    obtain ⟨event, hevent, record, hrecord, rfl, hmember⟩ :=
      heach _ hblock dataEpoch pool hepoch hpool
    exact ⟨event, hevent, record, hrecord, (hdata event hevent record hrecord).sameCardanoEpoch
      (haligned.startsWithData hslot hepoch), hmember⟩

/-- In every run of an aligned configuration each logged block is by a member of genesis or of a
committee that was selected for an epoch up to that of the block. The stake that the selected pools
had at their selection suffices exactly when each released block of a pool is in the Cardano epoch
of a selection of the pool. -/
theorem stake_never_missing_iff [LinearOrder Delegator]
    (setup : Setup Member AccountId AuthorityKeys Inputs Producer Delegator maxValidators)
    (haligned : Aligned setup.provider) (genesis : GenesisConfig Member)
    (trace : List (Event Member))
    (chain : Chain Member AccountId AuthorityKeys Producer maxValidators)
    (run : (system setup genesis).Run trace chain)
    (release : BlockParticipation.Slot → Option BlockParticipation.Slot) (target : Bytes 8)
    (slot : BlockParticipation.Slot) :
    LogEnlisted setup genesis trace chain.production.productionLog.log ∧
    (∀ event ∈ trace.tail, ∀ record ∈ event.selection,
      record.forEpoch ≠ 1 → record.basis = record.forEpoch) ∧
    (NeverMissing ε setup trace (api release target chain) slot ↔
      ∀ upToSlot, release slot = some upToSlot →
        Countable setup (ProductionLog.peekPrefix upToSlot chain.production.productionLog) →
        SelectedForReleased setup trace
          (ProductionLog.peekPrefix upToSlot chain.production.productionLog)) := by
  refine ⟨(allEnlisted_run run).log, (selectionsBased_run run).basis, neverMissing_iff.trans ?_⟩
  refine forall₃_congr fun upToSlot _ hcountable => ?_
  exact (selectedForReleased_iff haligned run (List.takeWhile_subset _) hcountable).symm

/-! ### The last block of a committee -/

/-- Producer 2 is a pool. What is given is selected, if it is not empty. -/
private def oneSpo : Setup ℕ ℕ ℕ (List ℕ) ℕ ℕ 4 where
  committee := ⟨fun given _ => if given.isEmpty then none else some (.truncateFrom 4 given), id, id,
    fun _ => .filled 32 0, fun _ => true⟩
  provider := Committee.tenSlotEpochs
  usizeBits := 64
  authorFrom := id
  search := .binarySearch _
  asCardanoSpo producer := if producer = 2 then some (.filled 28 2) else none
  fromDelegatorKey _ := 0

/-- The pool is selected for epoch 9 and permissioned candidates for epoch 10, which starts in the
next Cardano epoch. -/
private def untilHandover : List (Block (List ℕ)) :=
  [⟨85, some [2], none⟩, ⟨95, some [1], none⟩, ⟨96, none, none⟩]

private theorem exists_untilHandover : ∃ trace chain,
    produceBlocks oneSpo (genesisChain oneSpo Committee.oneAuthority) untilHandover =
      .ok (trace, chain) ∧
    chain.production.productionLog.log = [(85, 1), (95, 1), (96, 2)] ∧
    trace = [⟨85, some ⟨9, 8, 98, [2]⟩⟩, ⟨95, some ⟨10, 10, 99, [1]⟩⟩, ⟨96, none⟩] :=
  ⟨_, _, rfl, rfl, rfl⟩

private theorem aligned_oneSpo : Aligned oneSpo.provider :=
  ⟨⟨10, rfl⟩, ⟨0, rfl⟩⟩

/-- The block in slot 96 is in epoch 9, which is in the Cardano epoch of epoch 8, from the data of
which the pool was selected. -/
theorem stake_never_missing_until_handover : ∃ trace chain,
    (system oneSpo Committee.oneAuthority).Run trace chain ∧
      (96, 2) ∈ chain.production.productionLog.log ∧
      NeverMissing Unit oneSpo trace (api some (.filled 8 0) chain) 96 := by
  obtain ⟨trace, chain, hblocks, hlog, rfl⟩ := exists_untilHandover
  have run := run_of_produceBlocks oneSpo (.start rfl) hblocks
  refine ⟨_, chain, run, by simp [hlog], ?_⟩
  refine (stake_never_missing_iff oneSpo aligned_oneSpo _ _ chain run some _ 96).2.2.mpr ?_
  intro upToSlot _ _ slot epoch producer pool hblock hslot hpool
  have hmem : (slot.toNat, producer) ∈ [(85, 1), (95, 1), (96, 2)] :=
    hlog ▸ List.takeWhile_subset _ hblock
  simp only [List.mem_cons, Prod.mk.injEq, List.not_mem_nil, or_false] at hmem
  rcases hmem with ⟨-, rfl⟩ | ⟨-, rfl⟩ | ⟨hnumber, rfl⟩
  · cases hpool
  · cases hpool
  · obtain rfl : slot = 96 := UInt64.toNat_inj.mp hnumber
    obtain rfl : 9 = epoch := Except.ok.inj hslot
    exact ⟨_, List.mem_cons_self, ⟨9, 8, 98, [2]⟩, rfl, ⟨100, rfl, rfl⟩, 2,
      List.mem_singleton_self _, hpool⟩

private def poolStake : StakeDistribution :=
  OrderedMap.empty.insert (.filled 28 2) ⟨5, .empty⟩

/-- The pool has stake in the data epoch it is selected from, and in no other. -/
private def stakeInEpoch98 : BlockParticipationDataSource Unit := fun epoch pools =>
  .ok (if epoch = 98 ∧ pools.any (· = .filled 28 2) then poolStake else .empty)

private theorem answers_stakeInEpoch98 :
    Answers stakeInEpoch98 fun epoch pool => epoch = 98 ∧ pool = .filled 28 2 := by
  intro epoch pools distribution hdistribution pool
  obtain rfl := Except.ok.inj hdistribution
  have hany : pools.any (· = .filled 28 2) = true ↔ .filled 28 2 ∈ pools := by simp
  simp only [hany]
  by_cases hasked : epoch = 98 ∧ .filled 28 2 ∈ pools
  · rw [if_pos hasked, poolStake, OrderedMap.get?_insert]
    by_cases hpool : pool = .filled 28 2
    · simp [hpool, hasked]
    · simp [hpool]
  · rw [if_neg hasked]
    simp only [OrderedMap.get?_empty, Option.isSome_none, Bool.false_eq_true, false_iff]
    rintro ⟨hmem, rfl, rfl⟩
    exact hasked ⟨rfl, hmem⟩

private theorem exists_handover : ∃ trace chain,
    produceBlocks oneSpo (genesisChain oneSpo Committee.oneAuthority)
      (untilHandover ++ [⟨100, some [1], none⟩]) = .ok (trace, chain) ∧
    (BlockParticipationInherentDataProvider.new oneSpo.participation .ascending stakeInEpoch98
      (some (api some (.filled 8 0) chain)) 100 :
        Except _ (BlockParticipationInherentDataProvider ℕ ℕ)) = .error (.dataMissing 99 2) ∧
    trace = [⟨85, some ⟨9, 8, 98, [2]⟩⟩, ⟨95, some ⟨10, 10, 99, [1]⟩⟩, ⟨96, none⟩,
      ⟨100, some ⟨11, 11, 99, [1]⟩⟩] :=
  ⟨_, _, rfl, rfl, rfl⟩

/-- The first block of the next epoch is still produced by the old committee. -/
theorem handover_block_is_not_paid : Aligned oneSpo.provider ∧ ∃ trace chain,
    (system oneSpo Committee.oneAuthority).Run trace chain ∧
      ∃ hasStake, (∀ epoch pool, SelectedFrom oneSpo trace epoch pool → hasStake epoch pool) ∧
        Answers stakeInEpoch98 hasStake ∧
        (BlockParticipationInherentDataProvider.new oneSpo.participation .ascending
          stakeInEpoch98 (some (api some (.filled 8 0) chain)) 100 :
            Except _ (BlockParticipationInherentDataProvider ℕ ℕ)) =
              .error (.dataMissing 99 2) := by
  refine ⟨aligned_oneSpo, ?_⟩
  obtain ⟨trace, chain, hblocks, hmissing, rfl⟩ := exists_handover
  refine ⟨_, chain, run_of_produceBlocks oneSpo (.start rfl) hblocks, _, ?_,
    answers_stakeInEpoch98, hmissing⟩
  rintro epoch pool ⟨event, hevent, record, hrecord, rfl, member, hmember, hpool⟩
  simp only [List.nil_append, List.mem_cons, List.not_mem_nil, or_false] at hevent
  rcases hevent with rfl | rfl | rfl | rfl
  · obtain rfl := Option.some.inj hrecord
    obtain rfl := List.mem_singleton.mp hmember
    exact ⟨rfl, (Option.some.inj hpool).symm⟩
  · obtain rfl := Option.some.inj hrecord
    obtain rfl := List.mem_singleton.mp hmember
    cases hpool
  · cases hrecord
  · obtain rfl := Option.some.inj hrecord
    obtain rfl := List.mem_singleton.mp hmember
    cases hpool

end Payment

end PartnerChains.Participation
