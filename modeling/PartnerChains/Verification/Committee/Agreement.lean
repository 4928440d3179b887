import PartnerChains.Verification.Committee.Rotation

/-!
# Proposer and verifier agree on the committee inherent

The verifier checks the call on the parent state, the proposer builds it on the initialized
state. Both fall back to the same committee when the selection fails.
-/

namespace PartnerChains.Committee

variable {Member AccountId AuthorityKeys Inputs : Type} {maxValidators : ℕ}

/-- The committee the verifier keeps when no new one can be selected. -/
def verifierFallback (s : Storage Member maxValidators) : BoundedVec Member maxValidators :=
  (s.nextCommittee.getD s.currentCommittee).committee

theorem checkInherent_set_iff [DecidableEq Member]
    {cfg : Config Member AccountId AuthorityKeys Inputs maxValidators}
    {s : Storage Member maxValidators} {inputs : Inputs}
    {validators : BoundedVec Member maxValidators} {epoch : ScEpochNumber} {hash : Bytes 32} :
    checkInherent cfg s (.set validators epoch hash) (.ok (some inputs)) = .ok (.ok ()) ↔
      validators = (cfg.selectAuthorities inputs epoch).getD (verifierFallback s) := by
  change (if validators ≠ (cfg.selectAuthorities inputs epoch).getD (verifierFallback s)
    then _ else _) = _ ↔ _
  split_ifs with hne hhash <;> simp_all

theorem createInherent_set_iff
    {cfg : Config Member AccountId AuthorityKeys Inputs maxValidators}
    {s : Storage Member maxValidators} {inputs : Inputs}
    {validators : BoundedVec Member maxValidators} {epoch : ScEpochNumber} {hash : Bytes 32} :
    createInherent cfg s (.ok (some inputs)) = .ok (some (.set validators epoch hash)) ↔
      s.nextCommittee = none ∧ epoch = s.currentCommittee.epoch + 1 ∧
        validators =
          (cfg.selectAuthorities inputs epoch).getD s.currentCommittee.committee ∧
        hash = cfg.inputsHash inputs := by
  cases hnext : s.nextCommittee with
  | some next => simp [createInherent, hnext]
  | none =>
      have hcreate : createInherent cfg s (.ok (some inputs)) =
          .ok (some (.set
            ((cfg.selectAuthorities inputs (s.currentCommittee.epoch + 1)).getD
              s.currentCommittee.committee)
            (s.currentCommittee.epoch + 1) (cfg.inputsHash inputs))) := by
        simp only [createInherent, hnext, inherentDataToAuthoritySelectionInputs]
        cases hselect : cfg.selectAuthorities inputs (s.currentCommittee.epoch + 1) <;>
          simp [hselect]
      rw [hcreate]
      constructor
      · intro h
        injection h with h
        injection h with h
        injection h with hvalidators hepoch hhash
        subst hepoch
        exact ⟨rfl, rfl, hvalidators.symm, hhash.symm⟩
      · rintro ⟨-, rfl, rfl, rfl⟩
        rfl

/-- A block that leaves no next committee after its initialization serves the committee
that the verifier falls back to on the parent state. -/
theorem current_committee_of_initialized (blockNr : ℕ) (epoch : ScEpochNumber)
    (s : Storage Member maxValidators)
    (h : (rotated epoch (onInitialize blockNr epoch s)).nextCommittee = none) :
    (rotated epoch (onInitialize blockNr epoch s)).currentCommittee.committee =
      verifierFallback s := by
  have hnext : (onInitialize blockNr epoch s).nextCommittee = s.nextCommittee := by
    unfold onInitialize
    split_ifs <;> rfl
  have hcommittee : (onInitialize blockNr epoch s).currentCommittee.committee =
      s.currentCommittee.committee := by
    unfold onInitialize
    split_ifs <;> rfl
  cases hparent : s.nextCommittee with
  | none =>
      rw [rotated_of_none (hnext.trans hparent), hcommittee]
      simp [verifierFallback, hparent]
  | some next =>
      by_cases hlt : (onInitialize blockNr epoch s).currentCommittee.epoch < epoch
      · rw [rotated_of_lt (hnext.trans hparent) hlt]
        simp [verifierFallback, hparent]
      · rw [rotated_of_le (UInt64.not_lt.mp hlt), hnext, hparent] at h
        cases h

/-- On every parent state, a `set` call passes the verifier's check and dispatches after the
initialization of the block exactly when its validators and its epoch are the proposer's. -/
theorem set_accepted_iff_created [DecidableEq Member]
    (cfg : Config Member AccountId AuthorityKeys Inputs maxValidators) (blockNr : ℕ)
    (currentEpoch : ScEpochNumber)
    (parent : Runtime Member AccountId AuthorityKeys maxValidators) (inputs : Inputs)
    (validators : BoundedVec Member maxValidators) (forEpoch : ScEpochNumber)
    (hash : Bytes 32) :
    ∃ initialized, initializeBlock cfg blockNr currentEpoch parent = .ok initialized ∧
      ((checkInherent cfg parent.management (.set validators forEpoch hash)
            (.ok (some inputs)) = .ok (.ok ()) ∧
          ∃ management, dispatch cfg .none (.set validators forEpoch hash)
            initialized.management = .ok management) ↔
        ∃ createdHash, createInherent cfg initialized.management (.ok (some inputs)) =
          .ok (some (.set validators forEpoch createdHash))) := by
  obtain ⟨initialized, hok, hmanagement⟩ :=
    initializeBlock_spec cfg blockNr currentEpoch parent
  have hfallback := current_committee_of_initialized blockNr currentEpoch parent.management
  rw [← hmanagement] at hfallback
  refine ⟨initialized, hok, ?_⟩
  simp only [checkInherent_set_iff, createInherent_set_iff, dispatch, set_eq_ok_iff]
  constructor
  · rintro ⟨hvalidators, _, -, hepoch, hnone, -⟩
    exact ⟨_, hnone, hepoch, (hfallback hnone).symm ▸ hvalidators, rfl⟩
  · rintro ⟨_, hnone, hepoch, hvalidators, -⟩
    exact ⟨hfallback hnone ▸ hvalidators, _, trivial, hepoch, hnone, rfl⟩

end PartnerChains.Committee
