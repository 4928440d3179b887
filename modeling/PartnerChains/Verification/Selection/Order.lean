import PartnerChains.Algorithm.AuthoritySelection

/-!
# The committee does not depend on the order of its inputs

Data sources collect candidates and registrations in any order. The latest registration is
found by its key and each group is sorted before it is drawn from, so no order remains.
-/

namespace PartnerChains

namespace Selection.AriadneV2

variable {α : Type} [LinearOrder α]

theorem mergeSort_candidateLe_perm {xs ys : List (α × Weight)} (h : xs.Perm ys) :
    xs.mergeSort candidateLe = ys.mergeSort candidateLe := by
  have hsorted (zs : List (α × Weight)) :
      (zs.mergeSort candidateLe).Pairwise fun a b => candidateLe a b = true := by
    refine List.pairwise_mergeSort ?_ ?_ zs
    · intro a b c hab hbc
      simp only [candidateLe, decide_eq_true_eq] at hab hbc ⊢
      exact hab.trans hbc
    · intro a b
      simpa [candidateLe] using le_total (toLex a) (toLex b)
  refine List.Perm.eq_of_pairwise ?_ (hsorted xs) (hsorted ys) ?_
  · intro a b _ _ hab hba
    simp only [candidateLe, decide_eq_true_eq] at hab hba
    exact toLex.injective (le_antisymm hab hba)
  · exact (List.mergeSort_perm xs _).trans (h.trans (List.mergeSort_perm ys _).symm)

theorem weightedWithGuaranteedAssignment_perm (rng : Rng) {xs ys : List (α × Weight)}
    (h : xs.Perm ys) (n : ℕ) (rand : rng.State) :
    weightedWithGuaranteedAssignment rng xs n rand =
      weightedWithGuaranteedAssignment rng ys n rand := by
  rw [weightedWithGuaranteedAssignment, weightedWithGuaranteedAssignment,
    mergeSort_candidateLe_perm h, h.isEmpty_eq]

theorem selectAuthoritiesWith_perm (overflowChecks : Bool) (rng : Rng)
    (registeredSeats permissionedSeats : UInt16)
    {registered registered' : List (α × Weight)} (hregistered : registered.Perm registered')
    {permissioned permissioned' : List α} (hpermissioned : permissioned.Perm permissioned')
    (seed : Seed) :
    selectAuthoritiesWith overflowChecks rng registeredSeats permissionedSeats registered
        permissioned seed =
      selectAuthoritiesWith overflowChecks rng registeredSeats permissionedSeats registered'
        permissioned' seed := by
  have hweighted := hpermissioned.map fun candidate => (candidate, (1 : Weight))
  simp only [selectAuthoritiesWith, hregistered.isEmpty_eq, hweighted.isEmpty_eq,
    weightedWithGuaranteedAssignment_perm rng hregistered,
    weightedWithGuaranteedAssignment_perm rng hweighted]

end Selection.AriadneV2

namespace AuthoritySelection

/-! ## The latest registration -/

section MaxByKey

variable {α κ : Type} [LinearOrder κ] {key : α → κ}

theorem maxByKey_spec {xs : List α} {x : α} (h : maxByKey key xs = some x) :
    x ∈ xs ∧ ∀ y ∈ xs, key y ≤ key x := by
  cases xs with
  | nil => simp [maxByKey] at h
  | cons first xs =>
      simp only [maxByKey, Option.some.injEq] at h
      subst h
      induction xs generalizing first with
      | nil => simp
      | cons next xs ih =>
          rw [List.foldl_cons]
          by_cases hlt : key next < key first
          · rw [if_pos hlt]
            obtain ⟨hmem, hmax⟩ := ih first
            refine ⟨by grind, fun y hy => ?_⟩
            have hfirst := hmax first List.mem_cons_self
            rcases List.mem_cons.mp hy with rfl | hy
            · exact hfirst
            · rcases List.mem_cons.mp hy with rfl | hy
              · exact hlt.le.trans hfirst
              · exact hmax y (List.mem_cons_of_mem _ hy)
          · rw [if_neg hlt]
            obtain ⟨hmem, hmax⟩ := ih next
            refine ⟨List.mem_cons_of_mem _ hmem, fun y hy => ?_⟩
            rcases List.mem_cons.mp hy with rfl | hy
            · exact (not_lt.mp hlt).trans (hmax next List.mem_cons_self)
            · exact hmax y hy

theorem maxByKey_eq_none_iff {xs : List α} : maxByKey key xs = none ↔ xs = [] := by
  cases xs with
  | nil => simp [maxByKey]
  | cons x xs => simp [maxByKey]

/-- With distinct keys, the greatest one belongs to a single element. -/
theorem maxByKey_perm {xs ys : List α} (hnodup : (xs.map key).Nodup) (h : xs.Perm ys) :
    maxByKey key xs = maxByKey key ys := by
  cases hx : maxByKey key xs with
  | none =>
      rw [maxByKey_eq_none_iff] at hx
      subst hx
      rw [List.nil_perm.mp h]
      rfl
  | some x =>
      cases hy : maxByKey key ys with
      | none =>
          rw [maxByKey_eq_none_iff] at hy
          subst hy
          rw [List.perm_nil.mp h] at hx
          cases hx
      | some y =>
          obtain ⟨hxmem, hxmax⟩ := maxByKey_spec hx
          obtain ⟨hymem, hymax⟩ := maxByKey_spec hy
          have hymem' : y ∈ xs := h.mem_iff.mpr hymem
          have hkey : key x = key y :=
            le_antisymm (hymax x (h.mem_iff.mp hxmem)) (hxmax y hymem')
          rw [List.inj_on_of_nodup_map hnodup hxmem hymem' hkey]

end MaxByKey

/-! ## Reordered inputs -/

/-- The same candidate with its registrations in another order. -/
structure CandidateRegistrations.Reordered (a b : CandidateRegistrations) : Prop where
  stakePoolPublicKey : a.stakePoolPublicKey = b.stakePoolPublicKey
  stakeDelegation : a.stakeDelegation = b.stakeDelegation
  registrations : a.registrations.Perm b.registrations

/-- The same inputs with both lists of candidates, and the registrations of each candidate,
in another order. -/
structure AuthoritySelectionInputs.Reordered (a b : AuthoritySelectionInputs) : Prop where
  dParameter : a.dParameter = b.dParameter
  epochNonce : a.epochNonce = b.epochNonce
  permissionedCandidates : a.permissionedCandidates.Perm b.permissionedCandidates
  registeredCandidates : ∃ candidates, a.registeredCandidates.Perm candidates ∧
    List.Forall₂ CandidateRegistrations.Reordered candidates b.registeredCandidates

/-- No two registrations of the candidate have the same position. -/
def CandidateRegistrations.DistinctKeys (candidate : CandidateRegistrations) : Prop :=
  (candidate.registrations.map fun registration => registration.utxoInfo.orderingKey).Nodup

instance (candidate : CandidateRegistrations) : Decidable candidate.DistinctKeys :=
  inferInstanceAs (Decidable (List.Nodup _))

section Selection

variable {AccountId AccountKeys : Type} (runtime : Runtime AccountId AccountKeys)

theorem validRegistration_eq_some {stakePoolPubKey : StakePoolPublicKey} {genesisUtxo : UtxoId}
    {registration : RegistrationData} {valid : (Bytes 33 × AccountKeys) × UtxoInfo}
    (h : validRegistration runtime stakePoolPubKey genesisUtxo registration = some valid) :
    valid.2 = registration.utxoInfo := by
  unfold validRegistration at h
  split at h
  · cases h
    rfl
  · cases h

theorem nodup_validRegistrations (stakePoolPubKey : StakePoolPublicKey) (genesisUtxo : UtxoId)
    {registrations : List RegistrationData}
    (hnodup : (registrations.map fun registration =>
      registration.utxoInfo.orderingKey).Nodup) :
    ((registrations.filterMap (validRegistration runtime stakePoolPubKey genesisUtxo)).map
      fun valid => valid.2.orderingKey).Nodup := by
  refine hnodup.sublist ?_
  clear hnodup
  induction registrations with
  | nil => exact .slnil
  | cons registration registrations ih =>
      cases h : validRegistration runtime stakePoolPubKey genesisUtxo registration with
      | none =>
          rw [List.filterMap_cons_none h]
          exact ih.cons _
      | some valid =>
          rw [List.filterMap_cons_some h, List.map_cons, List.map_cons,
            validRegistration_eq_some runtime h]
          exact ih.cons_cons _

theorem selectLatestValidCandidate_reordered {a b : CandidateRegistrations}
    (h : a.Reordered b) (hkeys : a.DistinctKeys) (genesisUtxo : UtxoId) :
    selectLatestValidCandidate runtime a genesisUtxo =
      selectLatestValidCandidate runtime b genesisUtxo := by
  have hlatest := maxByKey_perm
    (nodup_validRegistrations runtime a.stakePoolPublicKey genesisUtxo hkeys)
    (h.registrations.filterMap _)
  rw [h.stakePoolPublicKey] at hlatest
  simp only [selectLatestValidCandidate, h.stakePoolPublicKey, h.stakeDelegation, hlatest]

theorem filterTrustless_reordered {xs ys : List CandidateRegistrations}
    (h : ∃ zs, xs.Perm zs ∧ List.Forall₂ CandidateRegistrations.Reordered zs ys)
    (hkeys : ∀ candidate ∈ xs, candidate.DistinctKeys) (genesisUtxo : UtxoId) :
    (filterTrustlessCandidatesRegistrations runtime xs genesisUtxo).Perm
      (filterTrustlessCandidatesRegistrations runtime ys genesisUtxo) := by
  obtain ⟨zs, hperm, hsame⟩ := h
  have hkeys : ∀ candidate ∈ zs, candidate.DistinctKeys :=
    fun candidate hmem => hkeys candidate (hperm.mem_iff.mpr hmem)
  have hselected : zs.filterMap (selectLatestValidCandidate runtime · genesisUtxo) =
      ys.filterMap (selectLatestValidCandidate runtime · genesisUtxo) := by
    clear hperm
    induction hsame with
    | nil => rfl
    | cons hhead _ ih =>
        have hcandidate := selectLatestValidCandidate_reordered runtime hhead
          (hkeys _ List.mem_cons_self) genesisUtxo
        rw [List.filterMap_cons, List.filterMap_cons, hcandidate,
          ih fun candidate hmem => hkeys candidate (List.mem_cons_of_mem _ hmem)]
  rw [filterTrustlessCandidatesRegistrations, filterTrustlessCandidatesRegistrations,
    ← hselected]
  exact (hperm.filterMap _).map _

/-- Nodes that read the same data in different orders select the same committee. -/
theorem selectAuthorities_reordered [LinearOrder AccountId] [LinearOrder AccountKeys]
    (rng : Selection.Rng) (runtime : Runtime AccountId AccountKeys) (maxAuthorities : ℕ)
    (genesisUtxo : UtxoId) (input input' : AuthoritySelectionInputs)
    (sidechainEpoch : ScEpochNumber) (h : input.Reordered input')
    (hkeys : ∀ candidate ∈ input.registeredCandidates, candidate.DistinctKeys) :
    selectAuthorities rng runtime maxAuthorities genesisUtxo input sidechainEpoch =
      selectAuthorities rng runtime maxAuthorities genesisUtxo input' sidechainEpoch := by
  have hregistered := filterTrustless_reordered runtime h.registeredCandidates hkeys genesisUtxo
  have hpermissioned : (filterInvalidPermissionedCandidates runtime
      input.permissionedCandidates).Perm (filterInvalidPermissionedCandidates runtime
        input'.permissionedCandidates) := h.permissionedCandidates.filterMap _
  simp only [selectAuthorities, selectAuthoritiesWith, selectCandidatesWith, h.dParameter,
    h.epochNonce, Selection.AriadneV2.selectAuthoritiesWith_perm true rng _ _ hregistered
      hpermissioned]

/-- A runtime that accepts every signature and has no session keys. -/
def acceptingRuntime : Runtime ℕ ℕ where
  accountId key := key.toNatBigEndian
  keyIds := []
  decode _ := some 0
  ed25519Verify _ _ _ := true
  ecdsaVerify _ _ _ := true

/-- A registration in the given block by the holder of the given key. -/
def sampleRegistration (block : McBlockNumber) (key : UInt8) : RegistrationData where
  registrationUtxo := ⟨.filled 32 1, block⟩
  sidechainSignature := List.replicate 64 0
  mainchainSignature := .filled 64 0
  crossChainSignature := []
  sidechainPubKey := List.replicate 33 key
  crossChainPubKey := []
  utxoInfo := ⟨⟨.filled 32 2, 0⟩, 1, block, block, 0⟩
  txInputs := [⟨.filled 32 1, block⟩]
  keys := []

/-- Three seats, two permissioned candidates and a pool with the given registrations. -/
def sampleInputs (permissioned : List UInt8) (registrations : List RegistrationData) :
    AuthoritySelectionInputs where
  dParameter := ⟨2, 1⟩
  permissionedCandidates := permissioned.map fun key => ⟨List.replicate 33 key, []⟩
  registeredCandidates := [⟨.filled 32 5, registrations, some 1000⟩]
  epochNonce := [7]

theorem selectAuthorities_reordered_sample :
    selectAuthorities Selection.zeroRng acceptingRuntime 10 ⟨.filled 32 0, 0⟩
        (sampleInputs [1, 2] [sampleRegistration 4 8, sampleRegistration 6 9]) 3 =
      selectAuthorities Selection.zeroRng acceptingRuntime 10 ⟨.filled 32 0, 0⟩
        (sampleInputs [2, 1] [sampleRegistration 6 9, sampleRegistration 4 8]) 3 := by
  refine selectAuthorities_reordered _ _ _ _ _ _ _ ?_ (by decide)
  exact {
    dParameter := rfl
    epochNonce := rfl
    permissionedCandidates := .swap _ _ _
    registeredCandidates := ⟨_, .refl _, .cons ⟨rfl, rfl, .swap _ _ _⟩ .nil⟩ }

end Selection

end AuthoritySelection

end PartnerChains
