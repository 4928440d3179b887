import PartnerChains.Verification.Session.Providers

/-!
# Disabled validators

An index can be disabled when it is below the length of the list that is kept for display. That
list is the list of validators, or empty, depending on how the pallet was built. Disabling a
validator disables the first index at which it sits.
-/

namespace PartnerChains.Session

open Fallible

variable {ValidatorId Keys AccountId σ μ ς : Type} [LinearOrder AccountId]
  {cfg : Config ValidatorId Keys AccountId σ μ ς} {search : PartitionPoint UInt32}
  {onDisabled : UInt32 → ς → ς} {r r' : Runtime ValidatorId Keys σ μ ς}

/-! ## What the operations do to the storage -/

def Storage.rotate (polkadotJsCompat : Bool) (validators : List (ValidatorId × Keys))
    (s : Storage ValidatorId Keys) : Storage ValidatorId Keys where
  validators := if polkadotJsCompat then validators.map Prod.fst else s.validators
  validatorsAndKeys := validators
  currentIndex := s.currentIndex
  disabledValidators := []

theorem rotateValidators_storage {validators : List (ValidatorId × Keys)}
    (h : rotateValidators cfg validators r = .ok r') :
    r'.storage = r.storage.rotate cfg.polkadotJsCompat validators := by
  cases hcompat : cfg.polkadotJsCompat with
  | true =>
      simp only [rotateValidators, hcompat, if_true, changeAccountProviders_self, ok_bind] at h
      rw [← Except.ok.inj h]
      rfl
  | false =>
      simp only [rotateValidators, hcompat, Bool.false_eq_true, if_false,
        changeAccountProviders_self, ok_bind] at h
      rw [← Except.ok.inj h]
      rfl

theorem rotateSession_storage {newValidators : Option (List (ValidatorId × Keys))} {manager : μ}
    (hnew : cfg.manager.newSession (r.storage.currentIndex + 1)
      (cfg.manager.endSession r.storage.currentIndex r.manager) = .ok (newValidators, manager))
    (h : rotateSession cfg r = .ok r') :
    r'.storage = newValidators.elim
      { r.storage with currentIndex := r.storage.currentIndex + 1 }
      fun validators => Storage.rotate cfg.polkadotJsCompat validators
        { r.storage with currentIndex := r.storage.currentIndex + 1 } := by
  obtain ⟨⟨newValidators', manager'⟩, hnew', h⟩ := bind_eq_ok_iff.mp h
  obtain ⟨applied, happly, h⟩ := bind_eq_ok_iff.mp h
  obtain rfl := Except.ok.inj h
  obtain ⟨rfl, rfl⟩ := Prod.mk.inj (Except.ok.inj (hnew.symm.trans hnew'))
  cases newValidators with
  | none => rw [← Except.ok.inj happly]; rfl
  | some validators => exact rotateValidators_storage happly

theorem build_storage {initialValidators : List (ValidatorId × Keys)}
    (h : build cfg initialValidators r = .ok r') :
    ∃ validators, r'.storage = r.storage.rotate cfg.polkadotJsCompat validators := by
  obtain ⟨_, -, h⟩ := bind_eq_ok_iff.mp h
  obtain ⟨⟨genesisValidators, manager⟩, -, h⟩ := bind_eq_ok_iff.mp h
  obtain ⟨rotated, hrotate, h⟩ := bind_eq_ok_iff.mp h
  obtain rfl := Except.ok.inj h
  have hstorage := rotateValidators_storage hrotate
  exact ⟨_, hstorage⟩

/-! ## The disabled list -/

variable {index : UInt32}

theorem isDisabled_iff {s : Storage ValidatorId Keys} (h : s.disabledValidators.Pairwise (· < ·)) :
    isDisabled search index s = true ↔ index ∈ s.disabledValidators := by
  rw [← search.getElem?_find_eq_some_iff h, isDisabled, binarySearch]
  split <;> simp_all [Except.isOk, Except.toBool]

/-- What holds of the storage in every state of a run. -/
structure Coherent (polkadotJsCompat : Bool) (s : Storage ValidatorId Keys) : Prop where
  increasing : s.disabledValidators.Pairwise (· < ·)
  below : ∀ i ∈ s.disabledValidators, i.toNat < s.validators.length
  validators : s.validators = if polkadotJsCompat then s.validatorsAndKeys.map Prod.fst else []
  storable : Storable s.validatorsAndKeys

namespace Coherent

variable {polkadotJsCompat : Bool} {s : Storage ValidatorId Keys}

theorem length_le (h : Coherent polkadotJsCompat s) :
    s.validators.length ≤ s.validatorsAndKeys.length := by
  rw [h.validators]
  cases polkadotJsCompat <;> simp

theorem toNat_ofNat_length (h : Coherent polkadotJsCompat s) :
    (UInt32.ofNat s.validators.length).toNat = s.validators.length :=
  UInt32.toNat_ofNat_of_lt (h.length_le.trans_lt h.storable)

theorem rotate (h : s.validators = [] ∨ Coherent polkadotJsCompat s)
    {validators : List (ValidatorId × Keys)} (hstorable : Storable validators) :
    Coherent polkadotJsCompat (s.rotate polkadotJsCompat validators) := by
  refine ⟨.nil, ?_, ?_, hstorable⟩
  · intro i hi
    cases hi
  · cases polkadotJsCompat with
    | true => rfl
    | false =>
        rcases h with hempty | hcoherent
        · exact hempty
        · exact hcoherent.validators

end Coherent

/-- An index that is below the length of the list for display gets disabled, and no other one. -/
theorem disableIndex_spec (search : PartitionPoint UInt32) (onDisabled : UInt32 → ς → ς)
    (h : Coherent cfg.polkadotJsCompat r.storage) (i : UInt32) :
    ∃ disabled, (disableIndex search onDisabled i r).2.storage =
        { r.storage with disabledValidators := disabled } ∧
      disabled.Pairwise (· < ·) ∧
      ∀ j, j ∈ disabled ↔ j ∈ r.storage.disabledValidators ∨
        j = i ∧ i.toNat < r.storage.validators.length := by
  have hlength := h.toNat_ofNat_length
  unfold disableIndex
  split_ifs with hover
  · have hnot : ¬ i.toNat < r.storage.validators.length := by
      rw [UInt32.le_iff_toNat_le, hlength] at hover
      exact not_lt.mpr hover
    exact ⟨r.storage.disabledValidators, rfl, h.increasing, fun j => by simp [hnot]⟩
  · have hlt : i.toNat < r.storage.validators.length := by
      rw [UInt32.le_iff_toNat_le, hlength] at hover
      exact not_le.mp hover
    by_cases hmem : i ∈ r.storage.disabledValidators
    · have hfound := (search.getElem?_find_eq_some_iff h.increasing).mpr hmem
      refine ⟨r.storage.disabledValidators, ?_, h.increasing, fun j => ?_⟩
      · simp [binarySearch, hfound]
      · constructor
        · exact .inl
        · rintro (hj | ⟨rfl, -⟩)
          · exact hj
          · exact hmem
    · have hmissing := mt (search.getElem?_find_eq_some_iff h.increasing).mp hmem
      refine ⟨_, by simp only [binarySearch, hmissing, if_false],
        search.pairwise_insertIdx_find h.increasing hmem, fun j => ?_⟩
      rw [search.mem_insertIdx_find h.increasing]
      tauto

theorem Coherent.disableIndex (h : Coherent cfg.polkadotJsCompat r.storage) (i : UInt32) :
    Coherent cfg.polkadotJsCompat (disableIndex search onDisabled i r).2.storage := by
  obtain ⟨disabled, hstorage, hincreasing, hmem⟩ :=
    disableIndex_spec search onDisabled h i
  rw [hstorage]
  refine ⟨hincreasing, fun j hj => ?_, h.validators, h.storable⟩
  rcases (hmem j).mp hj with hold | ⟨rfl, hlt⟩
  · exact h.below j hold
  · exact hlt

variable [DecidableEq ValidatorId]

theorem Coherent.disable (h : Coherent cfg.polkadotJsCompat r.storage) (c : ValidatorId) :
    Coherent cfg.polkadotJsCompat (disable search onDisabled c r).2.storage := by
  unfold Session.disable
  split
  · exact h.disableIndex _
  · exact h

/-! ## Runs -/

theorem Coherent.step {event : DisablingEvent ValidatorId Keys}
    (h : Coherent cfg.polkadotJsCompat r.storage)
    (hstep : (disablingSystem cfg search onDisabled).Step r event r') :
    Coherent cfg.polkadotJsCompat r'.storage := by
  cases hstep with
  | @rotate _ newValidators _ hnew hstorable hrotate =>
      rw [rotateSession_storage hnew hrotate]
      cases newValidators with
      | none => exact ⟨h.increasing, h.below, h.validators, h.storable⟩
      | some validators =>
          refine Coherent.rotate (.inr ?_) (hstorable validators rfl)
          exact ⟨h.increasing, h.below, h.validators, h.storable⟩
  | plan manager handler => exact h
  | disable c => exact h.disable c
  | disableIndex i => exact h.disableIndex i

variable {trace : List (DisablingEvent ValidatorId Keys)}

theorem coherent_of_run (run : (disablingSystem cfg search onDisabled).Run trace r) :
    Coherent cfg.polkadotJsCompat r.storage := by
  refine run.invariant (P := fun _ r => Coherent cfg.polkadotJsCompat r.storage) ?_ ?_
  · rintro r ⟨initialValidators, before, hempty, hbuild, hstorable⟩
    obtain ⟨validators, hstorage⟩ := build_storage hbuild
    rw [hstorage] at hstorable ⊢
    exact Coherent.rotate (.inl (by rw [hempty])) hstorable
  · intro _ r event r' h hstep
    exact h.step hstep

theorem disabledValidators_of_justRotated
    (run : (disablingSystem cfg search onDisabled).Run trace r) (h : JustRotated trace) :
    r.storage.disabledValidators = [] := by
  cases run with
  | start hinit =>
      obtain ⟨initialValidators, before, -, hbuild, -⟩ := hinit
      obtain ⟨validators, hstorage⟩ := build_storage hbuild
      rw [hstorage]
      rfl
  | step _ hstep =>
      rcases h with hnil | ⟨validators, hlast⟩
      · simp at hnil
      · rw [List.getLast?_append_of_ne_nil _ (by simp)] at hlast
        obtain rfl := Option.some.inj hlast
        cases hstep with
        | rotate hnew _ hrotate =>
            rw [rotateSession_storage hnew hrotate]
            rfl

/-- The disabled list is as it should be in every state of every run. -/
theorem disabledLaw_of_run (run : (disablingSystem cfg search onDisabled).Run trace r) :
    DisabledLaw trace r.storage := by
  have hcoherent := coherent_of_run run
  refine ⟨hcoherent.increasing, fun i hi => ?_, disabledValidators_of_justRotated run⟩
  exact (hcoherent.below i hi).trans_le hcoherent.length_le

/-! ## Disabling a validator -/

/-- The index that is looked up for a validator is the first one at which it sits. -/
theorem exists_first_of_mem {s : Storage ValidatorId Keys}
    (hstorable : Storable s.validatorsAndKeys) {c : ValidatorId}
    (hc : c ∈ s.validatorsAndKeys.map Prod.fst) :
    ∃ first : UInt32, SitsAt s c first ∧ (∀ index, SitsAt s c index → first ≤ index) ∧
      (s.validatorsAndKeys.findIdx? fun validator => validator.1 = c) = some first.toNat := by
  cases hfind : s.validatorsAndKeys.findIdx? fun validator => validator.1 = c with
  | none =>
      obtain ⟨validator, hmem, rfl⟩ := List.mem_map.mp hc
      have hno := List.findIdx?_eq_none_iff.mp hfind validator hmem
      simp at hno
  | some i =>
      obtain ⟨hlt, hi, hearlier⟩ := List.findIdx?_eq_some_iff_getElem.mp hfind
      have hnat : (UInt32.ofNat i).toNat = i := UInt32.toNat_ofNat_of_lt (hlt.trans hstorable)
      refine ⟨UInt32.ofNat i, ?_, fun index hindex => ?_, by rw [hnat]⟩
      · rw [SitsAt, hnat, List.getElem?_map, List.getElem?_eq_getElem hlt]
        simpa using hi
      · rw [UInt32.le_iff_toNat_le, hnat]
        by_contra hless
        rw [SitsAt, List.getElem?_map] at hindex
        rw [List.getElem?_eq_getElem ((not_le.mp hless).trans hlt), Option.map_some,
          Option.some.injEq] at hindex
        exact hearlier _ (not_le.mp hless) (decide_eq_true hindex)

omit [DecidableEq ValidatorId] in
/-- The first index of a current validator is below the length of the list for display exactly
when that list is kept. -/
theorem Coherent.sitsAt_lt_iff {polkadotJsCompat : Bool} {s : Storage ValidatorId Keys}
    (h : Coherent polkadotJsCompat s) {c : ValidatorId} (hsits : SitsAt s c index) :
    index.toNat < s.validators.length ↔ polkadotJsCompat = true := by
  rw [h.validators]
  cases polkadotJsCompat with
  | true => simpa using (List.getElem?_eq_some_iff.mp hsits).1
  | false => simp

/-- In every state of every run the disabled list is as it should be. After a current validator is
disabled, all its indices are exactly when the list for display is kept and all its indices but
the first one were disabled before. -/
theorem disabling_iff {trace : List (DisablingEvent ValidatorId Keys)}
    (run : (disablingSystem cfg search onDisabled).Run trace r) {c : ValidatorId}
    (hc : c ∈ r.storage.validatorsAndKeys.map Prod.fst) :
    (DisabledLaw trace r.storage ∧ ∀ index, SitsAt r.storage c index →
        isDisabled search index (disable search onDisabled c r).2.storage = true) ↔
      cfg.polkadotJsCompat = true ∧ ∀ earlier index, SitsAt r.storage c earlier →
        SitsAt r.storage c index → earlier < index →
          isDisabled search index r.storage = true := by
  have hcoherent := coherent_of_run run
  obtain ⟨first, hfirst, hleast, hfind⟩ := exists_first_of_mem hcoherent.storable hc
  obtain ⟨disabled, hstorage, hincreasing, hmem⟩ :=
    disableIndex_spec search onDisabled hcoherent first
  have hdisable : (disable search onDisabled c r).2.storage =
      { r.storage with disabledValidators := disabled } := by
    rw [← hstorage, disable, hfind]
    simp
  have hafter : ∀ index, isDisabled search index (disable search onDisabled c r).2.storage = true ↔
      index ∈ r.storage.disabledValidators ∨ index = first ∧ cfg.polkadotJsCompat = true := by
    intro index
    rw [hdisable, isDisabled_iff hincreasing, hmem, hcoherent.sitsAt_lt_iff hfirst]
  simp only [hafter, isDisabled_iff hcoherent.increasing, and_iff_right (disabledLaw_of_run run)]
  constructor
  · intro hall
    have hcompat : cfg.polkadotJsCompat = true := by
      rcases hall first hfirst with hbefore | ⟨-, hcompat⟩
      · exact (hcoherent.sitsAt_lt_iff hfirst).mp (hcoherent.below first hbefore)
      · exact hcompat
    refine ⟨hcompat, fun earlier index hearlier hindex hlt => ?_⟩
    rcases hall index hindex with hbefore | ⟨rfl, -⟩
    · exact hbefore
    · exact absurd hlt (UInt32.not_lt.mpr (hleast earlier hearlier))
  · rintro ⟨hcompat, hothers⟩ index hindex
    by_cases heq : index = first
    · exact .inr ⟨heq, hcompat⟩
    · refine .inl (hothers first index hfirst hindex ?_)
      exact UInt32.lt_of_le_of_ne (hleast index hindex) (Ne.symm heq)

/-! ### A validator that sits at two indices -/

def weightedCommittee : Runtime ℕ Unit (ℕ → ℕ) (List (List (ℕ × Unit))) Unit :=
  ⟨⟨[1, 2, 1], [(1, ()), (2, ()), (1, ())], 0, []⟩, fun _ => 0, [], ()⟩

theorem weightedCommittee_run :
    (disablingSystem queuedConfig (PartitionPoint.binarySearch UInt32) fun _ _ => ()).Run []
      weightedCommittee :=
  .start ⟨[], ⟨{}, fun _ => 0, [[(1, ()), (2, ()), (1, ())]], ()⟩, rfl, rfl,
    (by decide : 3 < 2 ^ 32)⟩

theorem toNat_eq_one_of_sitsAt (h : SitsAt weightedCommittee.storage 2 index) :
    index.toNat = 1 := by
  rw [SitsAt] at h
  generalize index.toNat = n at h
  match n with
  | 0 => cases h
  | 1 => rfl
  | 2 => cases h
  | n + 3 => cases h

/-- Validator 2 has one index. -/
theorem disabling_iff_single_index :
    DisabledLaw [] weightedCommittee.storage ∧ ∀ index, SitsAt weightedCommittee.storage 2 index →
      isDisabled (PartitionPoint.binarySearch UInt32) index
        (disable (PartitionPoint.binarySearch UInt32) (fun _ _ => ()) 2
          weightedCommittee).2.storage = true := by
  refine (disabling_iff weightedCommittee_run (by decide)).mpr ⟨rfl, ?_⟩
  intro earlier index hearlier hindex hlt
  rw [UInt32.lt_iff_toNat_lt, toNat_eq_one_of_sitsAt hearlier, toNat_eq_one_of_sitsAt hindex] at hlt
  exact absurd hlt (lt_irrefl 1)

/-- The same pallet, built without the list for display. -/
def withoutDisplay : Config ℕ Unit ℕ (ℕ → ℕ) (List (List (ℕ × Unit))) Unit :=
  { queuedConfig with polkadotJsCompat := false }

def singleValidator : Runtime ℕ Unit (ℕ → ℕ) (List (List (ℕ × Unit))) Unit :=
  ⟨⟨[], [(1, ())], 0, []⟩, fun _ => 0, [], ()⟩

/-- Validator 1 sits at the indices 0 and 2, of which only the first one gets disabled. Without
the list for display, not even the only index of a validator does. -/
theorem disabled_validator_keeps_index :
    ((disablingSystem queuedConfig (PartitionPoint.binarySearch UInt32) fun _ _ => ()).Run []
        weightedCommittee ∧
      SitsAt weightedCommittee.storage 1 2 ∧
      isDisabled (PartitionPoint.binarySearch UInt32) 2
        (disable (PartitionPoint.binarySearch UInt32) (fun _ _ => ()) 1
          weightedCommittee).2.storage = false) ∧
    ((disablingSystem withoutDisplay (PartitionPoint.binarySearch UInt32) fun _ _ => ()).Run []
        singleValidator ∧
      SitsAt singleValidator.storage 1 0 ∧
      isDisabled (PartitionPoint.binarySearch UInt32) 0
        (disable (PartitionPoint.binarySearch UInt32) (fun _ _ => ()) 1
          singleValidator).2.storage = false) := by
  refine ⟨⟨weightedCommittee_run, rfl, by decide⟩, ⟨.start ?_, rfl, by decide⟩⟩
  exact ⟨[], ⟨{}, fun _ => 0, [[(1, ())]], ()⟩, rfl, rfl, (by decide : 1 < 2 ^ 32)⟩

end PartnerChains.Session
