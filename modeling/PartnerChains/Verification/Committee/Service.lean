import PartnerChains.Model.SelectionChain
import PartnerChains.Verification.Committee.Rotation
import PartnerChains.Verification.Selection.Seats

/-!
# Committees in service have members

A selection that gives up keeps the committee in service. It returns an empty committee
instead exactly when the number of seats is computed to be zero.
-/

namespace PartnerChains

open Fallible

/-! ## Selections that seat nobody -/

namespace Selection.AriadneV2

variable {α : Type}

/-- There are seats, and their number does not wrap around to zero where it is used. -/
def SeatsSomeone (overflowChecks : Bool) (registeredSeats permissionedSeats : UInt16)
    (registeredCandidates : List (α × Weight)) (permissionedCandidates : List α) : Prop :=
  registeredSeats.toNat + permissionedSeats.toNat ≠ 0 ∧
    (overflowChecks = false → registeredSeats.toNat + permissionedSeats.toNat = 2 ^ 16 →
      registeredCandidates ≠ [] ∧ permissionedCandidates ≠ [])

theorem addWith_eq_ok {overflowChecks : Bool} {a b : UInt16} {total : ℕ}
    (h : Checked.addWith overflowChecks 16 a.toNat b.toNat = .ok total) :
    total < 2 ^ 16 ∧ (total = 0 ↔ a.toNat + b.toNat = 0 ∨
      overflowChecks = false ∧ a.toNat + b.toNat = 2 ^ 16) := by
  have ha := a.toNat_lt
  have hb := b.toNat_lt
  cases overflowChecks with
  | true =>
      simp only [Checked.addWith, Checked.add, Checked.narrow, if_true] at h
      split_ifs at h with hlt
      have htotal := Except.ok.inj h
      simp only [Bool.true_eq_false, false_and, or_false]
      omega
  | false =>
      have htotal := Except.ok.inj h
      simp only [true_and]
      omega

variable {rng : Rng} {seed : Seed} {overflowChecks : Bool}
  {registeredSeats permissionedSeats : UInt16} {registeredCandidates : List (α × Weight)}
  {permissionedCandidates : List α} {result : Option (List α)}

/-- What the selection returns for the members that were drawn, which it shuffles. -/
def returned (rng : Rng) (seed : Seed) (seatsTotal : ℕ) (selected : List α) : Option (List α) :=
  let committee := (rng.shuffle selected (rng.fromSeed seed)).1
  if committee.isEmpty ∧ seatsTotal > 0 then none else some committee

theorem returned_eq_some_nil {seatsTotal : ℕ} {selected : List α} :
    returned rng seed seatsTotal selected = some [] ↔ selected = [] ∧ seatsTotal = 0 := by
  have hperm := rng.shuffle_perm selected (rng.fromSeed seed)
  have hnil : (rng.shuffle selected (rng.fromSeed seed)).1 = [] ↔ selected = [] := by
    rw [← List.length_eq_zero_iff, hperm.length_eq, List.length_eq_zero_iff]
  simp only [returned, List.isEmpty_iff, hnil]
  by_cases hselected : selected = []
  · by_cases hseats : seatsTotal = 0
    · simpa [hselected, hseats] using hnil.mpr hselected
    · simp [hselected, hseats, Nat.pos_of_ne_zero hseats]
  · simp [hselected, hnil]

/-- What was drawn by a selection that returns. -/
structure Drawn (overflowChecks : Bool) (rng : Rng) (seed : Seed)
    (registeredSeats permissionedSeats : UInt16) (registeredCandidates : List (α × Weight))
    (permissionedCandidates : List α) (result : Option (List α)) (seatsTotal : ℕ)
    (selected : List α) : Prop where
  total : Checked.addWith overflowChecks 16 permissionedSeats.toNat registeredSeats.toNat =
    .ok seatsTotal
  result_eq : result = returned rng seed seatsTotal selected
  alone : registeredCandidates = [] ∨ permissionedCandidates = [] → seatsTotal = 0 →
    selected = []
  both : registeredCandidates ≠ [] → permissionedCandidates ≠ [] →
    selected.length = registeredSeats.toNat + permissionedSeats.toNat

variable [LinearOrder α]

theorem groupDraw_of_ok {candidates : List (α × Weight)} {n : ℕ} {rand : rng.State}
    {selected : List α} (hweights : StakeWeights candidates) (hn : n < 2 ^ 16)
    (h : weightedWithGuaranteedAssignment rng candidates n rand = .ok selected) :
    GroupDraw candidates n selected := by
  by_cases hfits : GroupFits candidates n
  · obtain ⟨drawn, hdrawn, hdraw⟩ :=
      weightedWithGuaranteedAssignment_of_fits rng hweights hn hfits rand
    rw [h] at hdrawn
    cases hdrawn
    exact hdraw
  · rw [weightedWithGuaranteedAssignment_of_not_fits rng hweights hn hfits rand] at h
    cases h

/-- One list without the other gets all the seats; both get their own. -/
theorem drawn_of_selectAuthoritiesWith (hweights : StakeWeights registeredCandidates)
    (h : selectAuthoritiesWith overflowChecks rng registeredSeats permissionedSeats
      registeredCandidates permissionedCandidates seed = .ok result) :
    ∃ seatsTotal selected, Drawn overflowChecks rng seed registeredSeats permissionedSeats
      registeredCandidates permissionedCandidates result seatsTotal selected := by
  obtain ⟨seatsTotal, htotal, h⟩ := bind_eq_ok_iff.mp h
  have hnone {candidates : List (α × Weight)} {selected : List α}
      (hselected : weightedWithGuaranteedAssignment rng candidates seatsTotal
        (rng.fromSeed seed) = .ok selected) (hzero : seatsTotal = 0) : selected = [] := by
    rw [weightedWithGuaranteedAssignment, if_pos (.inr hzero)] at hselected
    exact (Except.ok.inj hselected).symm
  by_cases hregistered : registeredCandidates = []
  · simp only [hregistered, List.isEmpty_nil, not_true_eq_false, false_and, if_false, if_true] at h
    obtain ⟨selected, hselected, h⟩ := bind_eq_ok_iff.mp h
    exact ⟨seatsTotal, selected, htotal, (Except.ok.inj h).symm, fun _ => hnone hselected,
      fun hne => absurd hregistered hne⟩
  · have hsomeR : registeredCandidates.isEmpty = false := by simpa using hregistered
    by_cases hpermissioned : permissionedCandidates = []
    · simp only [hsomeR, hpermissioned, List.map_nil, List.isEmpty_nil, Bool.false_eq_true,
        not_true_eq_false, and_false, if_false] at h
      obtain ⟨selected, hselected, h⟩ := bind_eq_ok_iff.mp h
      exact ⟨seatsTotal, selected, htotal, (Except.ok.inj h).symm, fun _ => hnone hselected,
        fun _ hne => absurd hpermissioned hne⟩
    · have hsomeP : permissionedCandidates.isEmpty = false := by simpa using hpermissioned
      simp only [hsomeR, hsomeP, List.isEmpty_map, Bool.false_eq_true, not_false_eq_true,
        and_self, if_true] at h
      obtain ⟨registered, hdrawR, h⟩ := bind_eq_ok_iff.mp h
      obtain ⟨permissioned, hdrawP, h⟩ := bind_eq_ok_iff.mp h
      have hlengthR := (groupDraw_of_ok hweights registeredSeats.toNat_lt hdrawR).length_eq
        hregistered
      have hlengthP := (groupDraw_of_ok stakeWeights_permissioned permissionedSeats.toNat_lt
        hdrawP).length_eq (by simpa using hpermissioned)
      refine ⟨seatsTotal, registered ++ permissioned, htotal, (Except.ok.inj h).symm,
        fun halone => absurd halone (not_or.mpr ⟨hregistered, hpermissioned⟩), fun _ _ => ?_⟩
      rw [List.length_append, hlengthR, hlengthP]

/-- A selection that returns, returns an empty committee exactly when it seats nobody. -/
theorem selectAuthoritiesWith_ne_some_nil_iff (hweights : StakeWeights registeredCandidates)
    (h : selectAuthoritiesWith overflowChecks rng registeredSeats permissionedSeats
      registeredCandidates permissionedCandidates seed = .ok result) :
    result ≠ some [] ↔ SeatsSomeone overflowChecks registeredSeats permissionedSeats
      registeredCandidates permissionedCandidates := by
  obtain ⟨seatsTotal, selected, hdrawn⟩ := drawn_of_selectAuthoritiesWith hweights h
  obtain ⟨-, hzero⟩ := addWith_eq_ok hdrawn.total
  rw [hdrawn.result_eq, Ne, returned_eq_some_nil, SeatsSomeone]
  by_cases halone : registeredCandidates = [] ∨ permissionedCandidates = []
  · have hempty : selected = [] ∧ seatsTotal = 0 ↔ seatsTotal = 0 :=
      ⟨And.right, fun hseats => ⟨hdrawn.alone halone hseats, hseats⟩⟩
    have hboth : ¬ (registeredCandidates ≠ [] ∧ permissionedCandidates ≠ []) := by tauto
    rw [hempty, hzero, Nat.add_comm permissionedSeats.toNat]
    tauto
  · obtain ⟨hregistered, hpermissioned⟩ := not_or.mp halone
    have hlength := hdrawn.both hregistered hpermissioned
    have hempty : selected = [] ∧ seatsTotal = 0 ↔
        registeredSeats.toNat + permissionedSeats.toNat = 0 := by
      rw [← List.length_eq_zero_iff, hlength, hzero]
      omega
    simp [hempty, hregistered, hpermissioned]

end Selection.AriadneV2

namespace Committee

/-! ## Committees in service -/

variable {Member AccountId AuthorityKeys Inputs : Type} {maxValidators : ℕ}

/-- Neither the committee in service nor the next one is empty. -/
structure Manned (s : Storage Member maxValidators) : Prop where
  current : s.currentCommittee.committee.toList ≠ []
  next : ∀ next, s.nextCommittee = some next → next.committee.toList ≠ []

variable {s : Storage Member maxValidators}

theorem Manned.onInitialize (h : Manned s) (blockNr : ℕ) (epoch : ScEpochNumber) :
    Manned (onInitialize blockNr epoch s) := by
  unfold Committee.onInitialize
  split_ifs
  · exact ⟨h.current, h.next⟩
  · exact h

theorem Manned.rotated (h : Manned s) (epoch : ScEpochNumber) : Manned (rotated epoch s) := by
  cases hnext : s.nextCommittee with
  | none => simpa only [rotated_of_none hnext] using h
  | some next =>
      by_cases hlt : s.currentCommittee.epoch < epoch
      · rw [rotated_of_lt hnext hlt]
        exact ⟨h.next next hnext, fun _ hnone => nomatch hnone⟩
      · simpa only [rotated_of_le (UInt64.not_lt.mp hlt)] using h

/-- The committee in service stays when nothing was selected. -/
theorem Manned.created {cfg : Config Member AccountId AuthorityKeys Inputs maxValidators}
    (h : Manned s) {inputs : Inputs} {validators : BoundedVec Member maxValidators}
    {forEpochNumber : ScEpochNumber} {hash : Bytes 32}
    (hselected : ∀ committee, cfg.selectAuthorities inputs forEpochNumber = some committee →
      committee.toList ≠ [])
    (hcreate : createInherent cfg s (.ok (some inputs)) =
      .ok (some (.set validators forEpochNumber hash))) : validators.toList ≠ [] := by
  obtain ⟨-, -, rfl⟩ := createInherent_eq_set hcreate
  cases hselect : cfg.selectAuthorities inputs forEpochNumber with
  | none => simpa using h.current
  | some committee => simpa using hselected committee hselect

/-- A step that stores created committees only keeps both of them non-empty. -/
theorem manned_step {cfg : Config Member AccountId AuthorityKeys Inputs maxValidators}
    {Condition : Inputs → ScEpochNumber → Prop}
    (hcondition : ∀ inputs epoch, Condition inputs epoch → ∀ committee,
      cfg.selectAuthorities inputs epoch = some committee → committee.toList ≠ [])
    {chain chain' : Chain Member AccountId AuthorityKeys maxValidators}
    {event : Event Member maxValidators} (h : Manned chain.runtime.management)
    (hcreated : CreatedFrom cfg Condition chain event) (hstep : Step cfg chain event chain') :
    Manned chain'.runtime.management := by
  cases hstep with
  | @initBlock epoch runtime _ hinit =>
      obtain ⟨r, hok, hmanagement⟩ :=
        initializeBlock_spec cfg (chain.number + 1) epoch chain.runtime
      obtain rfl : r = runtime := Except.ok.inj (hok.symm.trans hinit)
      simpa only [hmanagement] using (h.onInitialize (chain.number + 1) epoch).rotated epoch
  | accept _ hdispatch =>
      rcases dispatch_cases hdispatch with ⟨validators, hash, rfl, -, rfl⟩ | ⟨_, _, _, rfl, rfl⟩
      · obtain ⟨inputs, hinputs, hcreate⟩ := hcreated
        refine ⟨h.current, ?_⟩
        intro next hnext
        obtain rfl := Option.some.inj hnext
        exact h.created (hcondition inputs _ hinputs) hcreate
      · exact ⟨h.current, h.next⟩
  | reject _ _ => exact h

theorem Manned.round_robin (h : Manned s) (index : ℕ) :
    ∃ member ∈ s.currentCommittee.committee.toList,
      getCurrentAuthorityRoundRobin s index = some member := by
  have hlt : index % s.currentCommittee.committee.toList.length <
      s.currentCommittee.committee.toList.length :=
    Nat.mod_lt _ (List.length_pos_iff.mpr h.current)
  refine ⟨_, List.getElem_mem hlt, ?_⟩
  simp [getCurrentAuthorityRoundRobin, h.current, hlt]

end Committee

/-! ## Inputs that seat someone -/

namespace AuthoritySelection

variable {AccountId AccountKeys : Type} {runtime : Runtime AccountId AccountKeys}

theorem ne_zero_of_validateStake {stakeDelegation : Option StakeDelegation}
    {stake : StakeDelegation} (h : (validateStake stakeDelegation).toOption = some stake) :
    stake ≠ 0 := by
  cases stakeDelegation with
  | none => cases h
  | some delegated =>
      by_cases hzero : delegated = 0
      · simp [validateStake, hzero, Except.toOption] at h
      · obtain rfl : delegated = stake := by simpa [validateStake, hzero, Except.toOption] using h
        exact hzero

theorem stakeWeights_filterTrustless (registered : List CandidateRegistrations)
    (genesisUtxo : UtxoId) :
    Selection.AriadneV2.StakeWeights
      (filterTrustlessCandidatesRegistrations runtime registered genesisUtxo) := by
  intro candidate hcandidate
  obtain ⟨withStake, hvalid, rfl⟩ := List.mem_map.mp hcandidate
  obtain ⟨registrations, -, hselect⟩ := List.mem_filterMap.mp hvalid
  obtain ⟨stake, hstake, hselect⟩ := Option.bind_eq_some_iff.mp hselect
  obtain ⟨latest, -, hselect⟩ := Option.bind_eq_some_iff.mp hselect
  obtain rfl : _ = withStake := Option.some.inj hselect
  have hpositive : stake.toNat ≠ 0 :=
    fun hzero => ne_zero_of_validateStake hstake (UInt64.toNat_inj.mp hzero)
  exact ⟨Nat.pos_of_ne_zero hpositive, stake.toNat_lt⟩

end AuthoritySelection

namespace Committee

open AuthoritySelection Selection.AriadneV2

variable {AccountId AccountKeys : Type} [LinearOrder AccountId] [LinearOrder AccountKeys]
  {maxValidators : ℕ}

/-- The D-parameter asks for members, and the two numbers do not add up to 65536 in a build
without overflow checks while one of the filtered lists is empty. -/
def SelectionSetup.SeatsSomeone (setup : SelectionSetup AccountId AccountKeys)
    (inputs : AuthoritySelectionInputs) : Prop :=
  Selection.AriadneV2.SeatsSomeone setup.overflowChecks
    inputs.dParameter.numRegisteredCandidates inputs.dParameter.numPermissionedCandidates
    (filterTrustlessCandidatesRegistrations setup.runtime inputs.registeredCandidates
      setup.genesisUtxo)
    (filterInvalidPermissionedCandidates setup.runtime inputs.permissionedCandidates)

theorem truncateFrom_eq_nil_iff {α : Type} (hmax : 0 < maxValidators) {xs : List α} :
    (BoundedVec.truncateFrom maxValidators xs).toList = [] ↔ xs = [] := by
  simp [BoundedVec.truncateFrom, hmax.ne']

/-- A selected committee has members exactly when the inputs seat someone. -/
theorem select_ne_nil_iff {setup : SelectionSetup AccountId AccountKeys}
    {inputs : AuthoritySelectionInputs} {epoch : ScEpochNumber}
    {selection : Option (BoundedVec (CommitteeMember AccountId AccountKeys) maxValidators)}
    (hmax : 0 < maxValidators) (h : setup.select maxValidators inputs epoch = .ok selection) :
    (∀ committee, selection = some committee → committee.toList ≠ []) ↔
      setup.SeatsSomeone inputs := by
  obtain ⟨candidates, hcandidates, hselection⟩ := bind_eq_ok_iff.mp h
  obtain ⟨validators, hvalidators, hmembers⟩ := bind_eq_ok_iff.mp hcandidates
  have hiff := selectAuthoritiesWith_ne_some_nil_iff
    (stakeWeights_filterTrustless inputs.registeredCandidates setup.genesisUtxo) hvalidators
  rw [SelectionSetup.SeatsSomeone, ← hiff, ← Except.ok.inj hselection, ← Except.ok.inj hmembers]
  cases validators with
  | none => simp
  | some members => simp [truncateFrom_eq_nil_iff hmax]

/-! ## Runs of the chain -/

/-- Along every run from a non-empty genesis committee whose selections return and seat
someone, the committee in service has members. A selection that returns gives an empty
committee in all other cases. -/
theorem committee_in_service_has_members (setup : SelectionSetup AccountId AccountKeys)
    (inputsHash : AuthoritySelectionInputs → Bytes 32) (mainChainScriptsOrigin : Origin → Bool)
    (genesis : GenesisConfig (CommitteeMember AccountId AccountKeys))
    (hgenesis : genesis.initialAuthorities ≠ []) (hmax : 0 < maxValidators) :
    (∀ trace chain,
      ((system (ariadneConfig setup maxValidators inputsHash mainChainScriptsOrigin)
        genesis).restrict (CreatedFrom (ariadneConfig setup maxValidators inputsHash
          mainChainScriptsOrigin) fun inputs epoch =>
            (∃ selection, setup.select maxValidators inputs epoch = .ok selection) ∧
              setup.SeatsSomeone inputs)).Run trace chain →
      chain.runtime.management.currentCommittee.committee.toList ≠ [] ∧
        ∀ index, ∃ member ∈ chain.runtime.management.currentCommittee.committee.toList,
          getCurrentAuthorityRoundRobin chain.runtime.management index = some member) ∧
    ∀ inputs epoch selection, setup.select maxValidators inputs epoch = .ok selection →
      ((∀ committee, selection = some committee → committee.toList ≠ []) ↔
        setup.SeatsSomeone inputs) := by
  refine ⟨?_, fun inputs epoch selection => select_ne_nil_iff hmax⟩
  intro trace chain run
  have hmanned : Manned chain.runtime.management := by
    refine run.invariant (P := fun _ chain => Manned chain.runtime.management) ?_ ?_
    · rintro _ rfl
      refine ⟨?_, fun _ hnone => nomatch hnone⟩
      exact mt (truncateFrom_eq_nil_iff hmax).mp hgenesis
    · intro _ _ _ _ h hstep
      refine manned_step ?_ h hstep.1 hstep.2
      intro inputs epoch hinputs committee hcommittee
      obtain ⟨⟨selection, hselection⟩, hseats⟩ := hinputs
      refine (select_ne_nil_iff hmax hselection).mpr hseats committee ?_
      simpa [ariadneConfig, hselection, Except.toOption] using hcommittee
  exact ⟨hmanned.current, hmanned.round_robin⟩

/-! ### A chain without candidates -/

/-- A runtime that accepts every signature and has no session keys. -/
def keylessSetup : SelectionSetup ℕ ℕ where
  overflowChecks := true
  rng := Selection.zeroRng
  runtime := ⟨fun key => key.toNatBigEndian, [], fun _ => some 0, fun _ _ _ => true,
    fun _ _ _ => true⟩
  genesisUtxo := ⟨.filled 32 0, 0⟩

def keylessConfig : Config (CommitteeMember ℕ ℕ) ℕ ℕ AuthoritySelectionInputs 4 :=
  ariadneConfig keylessSetup 4 (fun _ => .filled 32 0) fun _ => true

def onePermissioned : GenesisConfig (CommitteeMember ℕ ℕ) :=
  ⟨[.permissioned 1 0], ⟨"", .filled 28 0, .filled 28 0⟩⟩

/-- Inputs without candidates and with the given D-parameter. -/
def inputsWithoutCandidates (dParameter : DParameter) : AuthoritySelectionInputs :=
  ⟨dParameter, [], [], []⟩

/-- The first block, in epoch 7, with the committee that it has stored for epoch 8. -/
def firstBlock (stored : Option (List (CommitteeMember ℕ ℕ))) :
    Chain (CommitteeMember ℕ ℕ) ℕ ℕ 4 :=
  ⟨1, 7,
    { genesisRuntime keylessConfig onePermissioned with
      management :=
        { currentCommittee := ⟨7, .truncateFrom 4 [.permissioned 1 0]⟩
          nextCommittee := stored.map fun committee => ⟨8, .truncateFrom 4 committee⟩
          mainChainScriptsConfiguration := onePermissioned.mainChainScripts } }⟩

/-- The second block, in epoch 8, with its committee in service. -/
def secondBlock (committee : List (CommitteeMember ℕ ℕ)) : Chain (CommitteeMember ℕ ℕ) ℕ ℕ 4 :=
  ⟨2, 8,
    { management := ⟨⟨8, .truncateFrom 4 committee⟩, none, onePermissioned.mainChainScripts⟩
      currentIndex := 1
      palletSessionCurrentIndex := 1
      validatorsAndKeys := (committee.take 4).map (validatorOfMember keylessConfig) }⟩

theorem firstBlock_step :
    Step keylessConfig ⟨0, 0, genesisRuntime keylessConfig onePermissioned⟩
      (.initialized ⟨7, .truncateFrom 4 [.permissioned 1 0]⟩) (firstBlock none) := by
  have step : Step keylessConfig ⟨0, 0, genesisRuntime keylessConfig onePermissioned⟩
      (.initialized (firstBlock none).runtime.management.currentCommittee)
      ⟨0 + 1, 7, (firstBlock none).runtime⟩ := .initBlock (by decide) rfl
  exact step

theorem firstBlock_stores (committee : List (CommitteeMember ℕ ℕ)) :
    Step keylessConfig (firstBlock none)
      (.accepted (.set (.truncateFrom 4 committee) 8 (.filled 32 0)))
      (firstBlock (some committee)) := by
  have hdispatch : dispatch keylessConfig .none (.set (.truncateFrom 4 committee) 8
      (.filled 32 0)) (firstBlock none).runtime.management =
        .ok (firstBlock (some committee)).runtime.management := rfl
  exact .accept (by decide) hdispatch

theorem secondBlock_step (committee : List (CommitteeMember ℕ ℕ)) :
    Step keylessConfig (firstBlock (some committee))
      (.initialized ⟨8, .truncateFrom 4 committee⟩) (secondBlock committee) := by
  have hepoch : (7 : ScEpochNumber) ≤ 8 := by decide
  have step : Step keylessConfig (firstBlock (some committee))
      (.initialized (secondBlock committee).runtime.management.currentCommittee)
      ⟨(firstBlock (some committee)).number + 1, 8, (secondBlock committee).runtime⟩ :=
    .initBlock hepoch rfl
  exact step

/-- One seat and nobody to take it: the genesis committee stays in service. -/
theorem committee_in_service_has_members_kept :
    ∃ member, getCurrentAuthorityRoundRobin
      (secondBlock [.permissioned 1 0]).runtime.management 5 = some member := by
  have run : ((system keylessConfig onePermissioned).restrict (CreatedFrom keylessConfig
      fun inputs epoch => (∃ selection, keylessSetup.select 4 inputs epoch = .ok selection) ∧
        keylessSetup.SeatsSomeone inputs)).Run _ (secondBlock [.permissioned 1 0]) :=
    .step (.step (.step (.start rfl) ⟨by exact trivial, firstBlock_step⟩)
      ⟨by exact ⟨inputsWithoutCandidates ⟨0, 1⟩, ⟨⟨_, rfl⟩, by decide, by decide⟩, rfl⟩,
        firstBlock_stores _⟩) ⟨by exact trivial, secondBlock_step _⟩
  obtain ⟨member, -, hmember⟩ := ((committee_in_service_has_members keylessSetup
    (fun _ => .filled 32 0) (fun _ => true) onePermissioned (by decide)
    (by decide)).1 _ _ run).2 5
  exact ⟨member, hmember⟩

/-- A D-parameter without seats: the empty committee is stored and enters service. -/
theorem no_seats_empty_the_committee :
    createInherent keylessConfig (firstBlock none).runtime.management
        (.ok (some (inputsWithoutCandidates ⟨0, 0⟩))) =
          .ok (some (.set (.truncateFrom 4 []) 8 (.filled 32 0))) ∧
      (∃ trace, (system keylessConfig onePermissioned).Run trace (firstBlock none)) ∧
      (∃ trace, (system keylessConfig onePermissioned).Run trace (secondBlock [])) ∧
      getCurrentAuthorityRoundRobin (secondBlock []).runtime.management 5 = none := by
  have first : (system keylessConfig onePermissioned).Run _ (firstBlock none) :=
    .step (.start rfl) firstBlock_step
  exact ⟨rfl, ⟨_, first⟩, ⟨_, .step (.step first (firstBlock_stores [])) (secondBlock_step [])⟩,
    rfl⟩

end Committee

end PartnerChains
