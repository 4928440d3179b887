import PartnerChains.Algorithm.Committee

/-! # What dispatch and block initialization do to the committee storage -/

namespace PartnerChains.Committee

variable {Member AccountId AuthorityKeys Inputs : Type} {maxValidators : ℕ}

/-! ## Dispatch -/

theorem set_eq_ok_iff {origin : Origin} {validators : BoundedVec Member maxValidators}
    {forEpochNumber : ScEpochNumber} {s t : Storage Member maxValidators} :
    set origin validators forEpochNumber s = .ok t ↔
      origin = .none ∧ forEpochNumber = s.currentCommittee.epoch + 1 ∧
        s.nextCommittee = none ∧
        t = { s with nextCommittee := some ⟨forEpochNumber, validators⟩ } := by
  unfold set
  split_ifs with horigin hepoch hnext
  · simp [horigin]
  · simp [hepoch]
  · simp [Option.isSome_iff_ne_none.mp hnext]
  · have hnone : s.nextCommittee = none := by simpa using hnext
    simp_all [eq_comm]

variable {cfg : Config Member AccountId AuthorityKeys Inputs maxValidators}

/-- An accepted call either stores the next committee or changes the scripts only. -/
theorem dispatch_cases {origin : Origin} {call : Call Member maxValidators}
    {s t : Storage Member maxValidators} (h : dispatch cfg origin call s = .ok t) :
    (∃ validators hash, call = .set validators (s.currentCommittee.epoch + 1) hash ∧
        s.nextCommittee = none ∧
        t = { s with
          nextCommittee := some ⟨s.currentCommittee.epoch + 1, validators⟩ }) ∨
      (∃ address dParameter permissioned,
        call = .setMainChainScripts address dParameter permissioned ∧
        t = { s with
          mainChainScriptsConfiguration := ⟨address, dParameter, permissioned⟩ }) := by
  cases call with
  | set validators forEpochNumber hash =>
      obtain ⟨-, rfl, hnone, rfl⟩ := set_eq_ok_iff.mp h
      exact .inl ⟨validators, hash, rfl, hnone, rfl⟩
  | setMainChainScripts address dParameter permissioned =>
      simp only [dispatch, setMainChainScripts] at h
      split_ifs at h
      exact .inr ⟨address, dParameter, permissioned, rfl, (Except.ok.inj h).symm⟩

/-! ## Created inherents -/

variable {s : Storage Member maxValidators}

/-- A created `set` stores what was selected, or else the committee in service once more. -/
theorem createInherent_eq_set {inputs : Inputs} {validators : BoundedVec Member maxValidators}
    {forEpochNumber : ScEpochNumber} {hash : Bytes 32}
    (h : createInherent cfg s (.ok (some inputs)) =
      .ok (some (.set validators forEpochNumber hash))) :
    s.nextCommittee = none ∧ forEpochNumber = s.currentCommittee.epoch + 1 ∧
      validators =
        (cfg.selectAuthorities inputs forEpochNumber).getD s.currentCommittee.committee := by
  unfold createInherent at h
  split_ifs at h with hnext
  · cases h
  · have hnone : s.nextCommittee = none := by simpa using hnext
    simp only [inherentDataToAuthoritySelectionInputs, Fallible.ok_bind] at h
    cases hselect : cfg.selectAuthorities inputs (s.currentCommittee.epoch + 1) with
    | none =>
        simp only [hselect, Except.ok.injEq, Option.some.injEq, Call.set.injEq] at h
        obtain ⟨rfl, rfl, -⟩ := h
        exact ⟨hnone, rfl, by rw [hselect, Option.getD_none]⟩
    | some selected =>
        simp only [hselect, Except.ok.injEq, Option.some.injEq, Call.set.injEq] at h
        obtain ⟨rfl, rfl, -⟩ := h
        exact ⟨hnone, rfl, by rw [hselect, Option.getD_some]⟩

/-! ## Initialization -/

variable {epoch : ScEpochNumber}

theorem shouldEndSession_iff :
    shouldEndSession cfg epoch s = true ↔
      s.currentCommittee.epoch < epoch ∧ ∃ next, s.nextCommittee = some next := by
  simp [shouldEndSession, nextCommittee, Option.isSome_iff_exists]

variable {next : CommitteeInfo Member maxValidators}

theorem newSession_of_next (cfg : Config Member AccountId AuthorityKeys Inputs maxValidators)
    (newIndex : UInt32) {r : Runtime Member AccountId AuthorityKeys maxValidators}
    (h : r.management.nextCommittee = some next) :
    newSession cfg newIndex r =
      .ok (some (next.committee.toList.map (validatorOfMember cfg)),
        { r with
          management :=
            { r.management with currentCommittee := next, nextCommittee := none }
          palletSessionCurrentIndex := newIndex }) := by
  simp [newSession, rotateCommitteeToNextEpoch, h]

theorem rotateSession_of_next (cfg : Config Member AccountId AuthorityKeys Inputs maxValidators)
    {r : Runtime Member AccountId AuthorityKeys maxValidators}
    (h : r.management.nextCommittee = some next) :
    rotateSession cfg r =
      .ok { management := { r.management with currentCommittee := next, nextCommittee := none }
            currentIndex := r.currentIndex + 1
            palletSessionCurrentIndex := r.currentIndex + 1
            validatorsAndKeys := next.committee.toList.map (validatorOfMember cfg) } := by
  have hnew := newSession_of_next cfg (r.currentIndex + 1)
    (r := { r with currentIndex := r.currentIndex + 1 }) h
  simp only [rotateSession, hnew]
  rfl

/-- The storage after the session check of a block in `epoch`. -/
def rotated (epoch : ScEpochNumber) (s : Storage Member maxValidators) :
    Storage Member maxValidators :=
  match s.nextCommittee with
  | none => s
  | some next =>
      if s.currentCommittee.epoch < epoch then
        { s with currentCommittee := next, nextCommittee := none }
      else s

theorem rotated_of_none (h : s.nextCommittee = none) : rotated epoch s = s := by
  simp [rotated, h]

theorem rotated_of_le (h : epoch ≤ s.currentCommittee.epoch) : rotated epoch s = s := by
  unfold rotated
  split
  · rfl
  · exact if_neg (UInt64.not_lt.mpr h)

theorem rotated_of_lt (hnext : s.nextCommittee = some next) (h : s.currentCommittee.epoch < epoch) :
    rotated epoch s = { s with currentCommittee := next, nextCommittee := none } := by
  simp [rotated, hnext, h]

/-- Block initialization never panics, and rotates exactly as `rotated` says. -/
theorem initializeBlock_spec (cfg : Config Member AccountId AuthorityKeys Inputs maxValidators)
    (blockNr : ℕ) (epoch : ScEpochNumber)
    (r : Runtime Member AccountId AuthorityKeys maxValidators) :
    ∃ r', initializeBlock cfg blockNr epoch r = .ok r' ∧
      r'.management = rotated epoch (onInitialize blockNr epoch r.management) := by
  unfold initializeBlock
  set s := onInitialize blockNr epoch r.management with hs
  by_cases hend : shouldEndSession cfg epoch s = true
  · obtain ⟨hlt, next, hnext⟩ := shouldEndSession_iff.mp hend
    exact ⟨_, (if_pos hend).trans (rotateSession_of_next cfg hnext),
      (rotated_of_lt hnext hlt).symm⟩
  · refine ⟨{ r with management := s }, by simp [hend], ?_⟩
    cases hnext : s.nextCommittee with
    | none => exact (rotated_of_none hnext).symm
    | some next =>
        have hle : epoch ≤ s.currentCommittee.epoch := by
          by_contra hlt
          exact hend (shouldEndSession_iff.mpr ⟨UInt64.not_le.mp hlt, next, hnext⟩)
        exact (rotated_of_le hle).symm

end PartnerChains.Committee
