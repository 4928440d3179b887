import PartnerChains.Algorithm.RegistrationsQuery
import PartnerChains.Verification.Selection.Order

/-!
# The registrations query agrees with the selection

The query sorts the registrations of a stake pool and keeps those from the last valid one on. The
selection takes the greatest of the valid ones. Both take the later one of equals in the list, so
they arrive at the same registration.
-/

namespace PartnerChains

open StableOrder

namespace AuthoritySelection

/-! ## The greatest element -/

section MaxByKey

variable {α β κ : Type} [LinearOrder κ] {key : α → κ}

theorem maxByKey_cons (x : α) (xs : List α) :
    maxByKey key (x :: xs) =
      some ((maxByKey key xs).elim x fun y => if key y < key x then x else y) := by
  cases xs with
  | nil => rfl
  | cons y xs =>
      simp only [maxByKey, List.foldl_cons, Option.elim_some, Option.some.injEq]
      induction xs generalizing x y with
      | nil => rfl
      | cons z xs ih =>
          rw [List.foldl_cons, ih, List.foldl_cons, ih y z]
          grind

theorem getLast?_sortByKey (xs : List α) : (sortByKey key xs).getLast? = maxByKey key xs := by
  induction xs with
  | nil => rfl
  | cons x xs ih => rw [getLast?_sortByKey_cons, ih, maxByKey_cons]

theorem maxByKey_map {key : β → κ} (f : α → β) (xs : List α) :
    maxByKey key (xs.map f) = (maxByKey (fun x => key (f x)) xs).map f := by
  induction xs with
  | nil => rfl
  | cons x xs ih =>
      rw [List.map_cons, maxByKey_cons, ih, maxByKey_cons]
      cases maxByKey (fun x => key (f x)) xs with
      | none => rfl
      | some y =>
          simp only [Option.map_some, Option.elim_some, Option.some.injEq]
          split_ifs <;> rfl

/-- Those before the element have no greater key, and those after it have smaller ones. -/
theorem exists_split_of_maxByKey {xs : List α} {x : α} (h : maxByKey key xs = some x) :
    ∃ before after, xs = before ++ x :: after ∧ (∀ y ∈ before, key y ≤ key x) ∧
      ∀ y ∈ after, key y < key x := by
  induction xs generalizing x with
  | nil => cases h
  | cons first xs ih =>
      rw [maxByKey_cons, Option.some.injEq] at h
      cases hrest : maxByKey key xs with
      | none =>
          rw [hrest, Option.elim_none] at h
          rw [maxByKey_eq_none_iff] at hrest
          subst h hrest
          exact ⟨[], [], rfl, by simp, by simp⟩
      | some y =>
          rw [hrest, Option.elim_some] at h
          split_ifs at h with hlt
          · subst h
            refine ⟨[], xs, rfl, by simp, fun z hz => ?_⟩
            exact ((maxByKey_spec hrest).2 z hz).trans_lt hlt
          · subst h
            obtain ⟨before, after, rfl, hbefore, hafter⟩ := ih hrest
            refine ⟨first :: before, after, rfl, ?_, hafter⟩
            exact List.forall_mem_cons.mpr ⟨not_lt.mp hlt, hbefore⟩

end MaxByKey

/-! ## The registration of a candidate that counts -/

section Selection

variable {AccountId AccountKeys : Type} (runtime : Runtime AccountId AccountKeys)
  (genesisUtxo : UtxoId)

/-- The registration passes the checks of the selection. -/
def ValidRegistration (stakePoolPublicKey : StakePoolPublicKey)
    (registration : RegistrationData) : Prop :=
  (validRegistration runtime stakePoolPublicKey genesisUtxo registration).isSome

instance (stakePoolPublicKey : StakePoolPublicKey) (registration : RegistrationData) :
    Decidable (ValidRegistration runtime genesisUtxo stakePoolPublicKey registration) :=
  inferInstanceAs (Decidable (Option.isSome _ = true))

def latestValidRegistration (candidate : CandidateRegistrations) : Option RegistrationData :=
  maxByKey (fun registration => registration.utxoInfo.orderingKey)
    (candidate.registrations.filter
      (ValidRegistration runtime genesisUtxo candidate.stakePoolPublicKey ·))

variable {runtime genesisUtxo} {candidate : CandidateRegistrations}
  {registration : RegistrationData}

/-- The candidate is made of the registration: a valid one, which no valid one before it in the
list is later than, and which is later than every valid one after it. -/
structure Uses (runtime : Runtime AccountId AccountKeys) (genesisUtxo : UtxoId)
    (candidate : CandidateRegistrations) (selected : CandidateWithStake AccountId AccountKeys)
    (registration : RegistrationData) : Prop where
  valid : ∃ pubKey, validateRegistrationData runtime candidate.stakePoolPublicKey registration
    genesisUtxo = .ok (pubKey, selected.accountKeys) ∧ selected.accountId = runtime.accountId pubKey
  latest : ∃ before after, candidate.registrations = before ++ registration :: after ∧
    (∀ other ∈ before,
      ValidRegistration runtime genesisUtxo candidate.stakePoolPublicKey other →
        other.utxoInfo.orderingKey ≤ registration.utxoInfo.orderingKey) ∧
    ∀ other ∈ after,
      ValidRegistration runtime genesisUtxo candidate.stakePoolPublicKey other →
        other.utxoInfo.orderingKey < registration.utxoInfo.orderingKey

theorem validRegistration_eq_some_iff {stakePoolPublicKey : StakePoolPublicKey}
    {valid : (Bytes 33 × AccountKeys) × UtxoInfo} :
    validRegistration runtime stakePoolPublicKey genesisUtxo registration = some valid ↔
      validateRegistrationData runtime stakePoolPublicKey registration genesisUtxo = .ok valid.1 ∧
        valid.2 = registration.utxoInfo := by
  obtain ⟨checked, info⟩ := valid
  unfold validRegistration
  cases validateRegistrationData runtime stakePoolPublicKey registration genesisUtxo <;>
    simp [eq_comm]

/-- The greatest of the checked registrations is the check of the greatest registration. -/
theorem maxByKey_validRegistrations (stakePoolPublicKey : StakePoolPublicKey)
    (registrations : List RegistrationData) :
    maxByKey (fun valid => valid.2.orderingKey)
        (registrations.filterMap (validRegistration runtime stakePoolPublicKey genesisUtxo)) =
      (maxByKey (fun registration => registration.utxoInfo.orderingKey)
        (registrations.filter (ValidRegistration runtime genesisUtxo stakePoolPublicKey ·))).bind
        (validRegistration runtime stakePoolPublicKey genesisUtxo) := by
  induction registrations with
  | nil => rfl
  | cons first registrations ih =>
      cases hfirst : validRegistration runtime stakePoolPublicKey genesisUtxo first with
      | none =>
          rw [List.filterMap_cons_none hfirst, ih, List.filter_cons_of_neg]
          simp [ValidRegistration, hfirst]
      | some valid =>
          rw [List.filterMap_cons_some hfirst, List.filter_cons_of_pos (by
            simp [ValidRegistration, hfirst]), maxByKey_cons, maxByKey_cons, ih]
          cases hrest : maxByKey (fun registration => registration.utxoInfo.orderingKey)
              (registrations.filter
                (ValidRegistration runtime genesisUtxo stakePoolPublicKey ·)) with
          | none => simp [hfirst]
          | some latest =>
              have hlatest := (maxByKey_spec hrest).1
              rw [List.mem_filter, decide_eq_true_eq] at hlatest
              obtain ⟨other, hother⟩ := Option.isSome_iff_exists.mp hlatest.2
              rw [Option.bind_some, hother, Option.elim_some, Option.elim_some, Option.bind_some,
                validRegistration_eq_some runtime hfirst, validRegistration_eq_some runtime hother]
              split_ifs
              · exact hfirst.symm
              · exact hother.symm

theorem uses_latestValidRegistration {selected : CandidateWithStake AccountId AccountKeys}
    {pubKey : Bytes 33}
    (hlatest : latestValidRegistration runtime genesisUtxo candidate = some registration)
    (hvalid : validateRegistrationData runtime candidate.stakePoolPublicKey registration
      genesisUtxo = .ok (pubKey, selected.accountKeys))
    (haccount : selected.accountId = runtime.accountId pubKey) :
    Uses runtime genesisUtxo candidate selected registration := by
  refine ⟨⟨pubKey, hvalid, haccount⟩, ?_⟩
  obtain ⟨before, after, hsplit, hbefore, hafter⟩ := exists_split_of_maxByKey hlatest
  obtain ⟨before', rest, hregistrations, rfl, hrest⟩ := List.filter_eq_append_iff.mp hsplit
  obtain ⟨skipped, after', rfl, hskipped, -, rfl⟩ := List.filter_eq_cons_iff.mp hrest
  refine ⟨before' ++ skipped, after', by simp [hregistrations], ?_, ?_⟩
  · intro other hother hvalid
    rcases List.mem_append.mp hother with hother | hother
    · exact hbefore other (List.mem_filter.mpr ⟨hother, decide_eq_true hvalid⟩)
    · exact absurd (decide_eq_true hvalid) (hskipped other hother)
  · exact fun other hother hvalid =>
      hafter other (List.mem_filter.mpr ⟨hother, decide_eq_true hvalid⟩)

theorem exists_valid_of_latest
    (h : latestValidRegistration runtime genesisUtxo candidate = some registration) :
    ∃ pubKey accountKeys, validateRegistrationData runtime candidate.stakePoolPublicKey registration
      genesisUtxo = .ok (pubKey, accountKeys) := by
  have hmem := (maxByKey_spec h).1
  rw [List.mem_filter, decide_eq_true_eq] at hmem
  obtain ⟨valid, hvalid⟩ := Option.isSome_iff_exists.mp hmem.2
  exact ⟨valid.1.1, valid.1.2, (validRegistration_eq_some_iff.mp hvalid).1⟩

/-- A candidate is selected if its stake is known and positive and one of its registrations is
valid. -/
theorem selectLatestValidCandidate_eq {pubKey : Bytes 33} {accountKeys : AccountKeys}
    (hlatest : latestValidRegistration runtime genesisUtxo candidate = some registration)
    (hvalid : validateRegistrationData runtime candidate.stakePoolPublicKey registration
      genesisUtxo = .ok (pubKey, accountKeys)) :
    selectLatestValidCandidate runtime candidate genesisUtxo =
      (validateStake candidate.stakeDelegation).toOption.map fun stakeDelegation =>
        { stakePoolPubKey := candidate.stakePoolPublicKey
          stakeDelegation
          accountId := runtime.accountId pubKey
          accountKeys } := by
  have hchecked : validRegistration runtime candidate.stakePoolPublicKey genesisUtxo registration =
      some ((pubKey, accountKeys), registration.utxoInfo) :=
    validRegistration_eq_some_iff.mpr ⟨hvalid, rfl⟩
  unfold latestValidRegistration at hlatest
  simp only [selectLatestValidCandidate, maxByKey_validRegistrations, hlatest, Option.bind_some,
    hchecked, Option.bind_eq_bind]
  cases (validateStake candidate.stakeDelegation).toOption <;> rfl

theorem selectLatestValidCandidate_eq_none
    (h : latestValidRegistration runtime genesisUtxo candidate = none) :
    selectLatestValidCandidate runtime candidate genesisUtxo = none := by
  unfold latestValidRegistration at h
  simp [selectLatestValidCandidate, maxByKey_validRegistrations, h]

end Selection

end AuthoritySelection

namespace RegistrationsQuery

open AuthoritySelection

variable {AccountId AccountKeys : Type} {runtime : Runtime AccountId AccountKeys}
  {genesisUtxo : UtxoId} {accountSs58 : Bytes 33 → String} {candidate : CandidateRegistrations}

/-! ## The entries of a candidate -/

/-- The entries of a candidate and its selection agree. -/
structure Agrees (runtime : Runtime AccountId AccountKeys) (genesisUtxo : UtxoId)
    (accountSs58 : Bytes 33 → String) (candidate : CandidateRegistrations)
    (entries : List CandidateRegistrationEntry) : Prop where
  /-- Of a selected candidate, the first entry is valid and shows the registration that the
  selection uses. No other entry is valid or older. -/
  selected : ∀ selected, selectLatestValidCandidate runtime candidate genesisUtxo = some selected →
    ∃ registration later, Uses runtime genesisUtxo candidate selected registration ∧
      entries = .new accountSs58 registration candidate.stakePoolPublicKey
        candidate.stakeDelegation none :: later ∧
      ∀ entry ∈ later, entry.isValid = false ∧
        registration.utxoInfo.orderingKey ≤ entry.utxo.orderingKey
  rejected : selectLatestValidCandidate runtime candidate genesisUtxo = none →
    ∀ entry ∈ entries, entry.isValid = false

theorem validateRegisteredCandidateData_eq_none_iff {registration : RegistrationData} :
    validateRegisteredCandidateData runtime genesisUtxo candidate.stakePoolPublicKey registration =
        none ↔
      ValidRegistration runtime genesisUtxo candidate.stakePoolPublicKey registration := by
  unfold validateRegisteredCandidateData ValidRegistration validRegistration
  cases validateRegistrationData runtime candidate.stakePoolPublicKey registration genesisUtxo <;>
    simp

variable (runtime genesisUtxo accountSs58 candidate) in
/-- The entry of a registration, as the runtime judges it. -/
def entryOf (registration : RegistrationData) : CandidateRegistrationEntry :=
  .new accountSs58 registration candidate.stakePoolPublicKey candidate.stakeDelegation
    (validateRegisteredCandidateData runtime genesisUtxo candidate.stakePoolPublicKey registration)

theorem isValid_entryOf (registration : RegistrationData) :
    (entryOf runtime genesisUtxo accountSs58 candidate registration).isValid =
      decide (ValidRegistration runtime genesisUtxo candidate.stakePoolPublicKey registration) := by
  rw [Bool.eq_iff_iff, decide_eq_true_eq, ← validateRegisteredCandidateData_eq_none_iff]
  exact Option.isNone_iff_eq_none

variable (runtime genesisUtxo accountSs58 candidate) in
def sortedEntries : List CandidateRegistrationEntry :=
  sortByKey (fun entry => entry.utxo.orderingKey)
    (candidate.registrations.map (entryOf runtime genesisUtxo accountSs58 candidate))

variable (runtime genesisUtxo accountSs58 candidate) in
theorem getLast?_valid_sortedEntries :
    ((sortedEntries runtime genesisUtxo accountSs58 candidate).filter fun entry =>
        entry.isValid).getLast? =
      (latestValidRegistration runtime genesisUtxo candidate).map
        (entryOf runtime genesisUtxo accountSs58 candidate) := by
  rw [sortedEntries, filter_sortByKey, getLast?_sortByKey, List.filter_map, maxByKey_map,
    latestValidRegistration]
  congr 3
  funext registration
  exact isValid_entryOf registration

theorem candidateEntries_eq :
    candidateEntries accountSs58 (candidateValidationApi runtime genesisUtxo) candidate =
      let sorted := sortedEntries runtime genesisUtxo accountSs58 candidate
      let remaining := sorted.drop ((rposition (fun entry => entry.isValid) sorted).getD 0)
      .ok ((validateStakeDelegation candidate.stakeDelegation).elim remaining
        (rejectFirst · remaining)) := by
  have hentries : registrationEntries accountSs58 (candidateValidationApi runtime genesisUtxo)
      candidate =
        .ok (candidate.registrations.map (entryOf runtime genesisUtxo accountSs58 candidate)) :=
    Fallible.mapM_eq_ok_map fun _ _ => rfl
  have hstake : (candidateValidationApi runtime genesisUtxo).validateStake
      candidate.stakeDelegation = .ok (validateStakeDelegation candidate.stakeDelegation) := rfl
  rw [candidateEntries, hentries, Fallible.ok_bind, hstake, Fallible.ok_bind]
  cases validateStakeDelegation candidate.stakeDelegation <;> rfl

theorem rejectFirst_of_invalid {error : StakeError} {entries : List CandidateRegistrationEntry}
    (h : ∀ entry ∈ entries, entry.isValid = false) : rejectFirst error entries = entries := by
  cases entries with
  | nil => rfl
  | cons first later => rw [rejectFirst, h first List.mem_cons_self, if_neg (by simp)]

/-- Without a valid registration, all entries are returned. -/
theorem agrees_of_invalid {entries : List CandidateRegistrationEntry}
    (hlatest : latestValidRegistration runtime genesisUtxo candidate = none)
    (hinvalid : ∀ entry ∈ entries, entry.isValid = false) :
    Agrees runtime genesisUtxo accountSs58 candidate ((validateStakeDelegation
      candidate.stakeDelegation).elim entries (rejectFirst · entries)) := by
  have hnone := selectLatestValidCandidate_eq_none hlatest
  refine ⟨fun selected hselected => ?_, fun _ => ?_⟩
  · rw [hnone] at hselected
    cases hselected
  · cases validateStakeDelegation candidate.stakeDelegation with
    | none => exact hinvalid
    | some error =>
        rw [Option.elim_some, rejectFirst_of_invalid hinvalid]
        exact hinvalid

/-- With a valid registration, the stake decides. -/
theorem agrees_of_latest {registration : RegistrationData}
    {later : List CandidateRegistrationEntry}
    (hlatest : latestValidRegistration runtime genesisUtxo candidate = some registration)
    (hlater : ∀ entry ∈ later, entry.isValid = false ∧
      registration.utxoInfo.orderingKey ≤ entry.utxo.orderingKey) :
    Agrees runtime genesisUtxo accountSs58 candidate ((validateStakeDelegation
      candidate.stakeDelegation).elim
        (entryOf runtime genesisUtxo accountSs58 candidate registration :: later)
        (rejectFirst ·
          (entryOf runtime genesisUtxo accountSs58 candidate registration :: later))) := by
  obtain ⟨pubKey, accountKeys, hvalid⟩ := exists_valid_of_latest hlatest
  have hselect := selectLatestValidCandidate_eq hlatest hvalid
  have hreasons : validateRegisteredCandidateData runtime genesisUtxo
      candidate.stakePoolPublicKey registration = none := by
    rw [validateRegisteredCandidateData, hvalid]
  unfold validateStakeDelegation
  cases hstake : validateStake candidate.stakeDelegation with
  | ok stake =>
      rw [hstake] at hselect
      refine ⟨fun selected hselected => ?_, fun hnone => ?_⟩
      · rw [hselect] at hselected
        cases hselected
        refine ⟨registration, later, uses_latestValidRegistration hlatest hvalid rfl, ?_, hlater⟩
        rw [entryOf, hreasons]
        rfl
      · rw [hselect] at hnone
        cases hnone
  | error error =>
      rw [hstake] at hselect
      refine ⟨fun selected hselected => ?_, fun _ entry hentry => ?_⟩
      · rw [hselect] at hselected
        cases hselected
      · rw [Option.elim_some, rejectFirst, entryOf, hreasons] at hentry
        rcases List.mem_cons.mp hentry with rfl | hentry
        · rfl
        · exact (hlater entry hentry).1

theorem exists_candidateEntries (runtime : Runtime AccountId AccountKeys) (genesisUtxo : UtxoId)
    (accountSs58 : Bytes 33 → String) (candidate : CandidateRegistrations) :
    ∃ entries, candidateEntries accountSs58 (candidateValidationApi runtime genesisUtxo) candidate =
        .ok entries ∧ Agrees runtime genesisUtxo accountSs58 candidate entries := by
  refine ⟨_, candidateEntries_eq, ?_⟩
  have hlast := getLast?_valid_sortedEntries runtime genesisUtxo accountSs58 candidate
  cases hposition : rposition (fun entry => entry.isValid)
      (sortedEntries runtime genesisUtxo accountSs58 candidate) with
  | none =>
      have hinvalid := rposition_eq_none_iff.mp hposition
      refine agrees_of_invalid ?_ hinvalid
      have hfilter : (sortedEntries runtime genesisUtxo accountSs58 candidate).filter
          (fun entry => entry.isValid) = [] := by
        simpa [List.filter_eq_nil_iff] using hinvalid
      rw [hfilter, List.getLast?_nil] at hlast
      exact Option.map_eq_none_iff.mp hlast.symm
  | some position =>
      obtain ⟨first, later, hdrop, hfirst, hlater⟩ := exists_drop_rposition hposition
      rw [hfirst] at hlast
      obtain ⟨registration, hlatest, rfl⟩ := Option.map_eq_some_iff.mp hlast.symm
      have hsorted : (entryOf runtime genesisUtxo accountSs58 candidate registration ::
          later).Pairwise fun a b => a.utxo.orderingKey ≤ b.utxo.orderingKey := by
        rw [← hdrop]
        exact (pairwise_sortByKey _).sublist (List.drop_sublist _ _)
      rw [Option.getD_some, hdrop]
      exact agrees_of_latest hlatest fun entry hentry =>
        ⟨hlater entry hentry, List.rel_of_pairwise_cons hsorted hentry⟩

/-! ## The keys of the answer -/

theorem digitChar_inj : ∀ m < 16, ∀ n < 16, Nat.digitChar m = Nat.digitChar n → m = n := by
  decide

theorem hexDigits_injective : Function.Injective hexDigits := by
  intro a b h
  simp only [hexDigits, List.cons.injEq, and_true] at h
  have ha := a.toNat_lt
  have hb := b.toNat_lt
  have hhigh := digitChar_inj _ (by omega) _ (by omega) h.1
  have hlow := digitChar_inj _ (by omega) _ (by omega) h.2
  exact UInt8.toNat_inj.mp (by omega)

theorem flatMap_hexDigits_injective :
    Function.Injective fun bytes : ByteString => bytes.flatMap hexDigits := by
  intro xs
  induction xs with
  | nil =>
      intro ys h
      cases ys with
      | nil => rfl
      | cons => simp [hexDigits] at h
  | cons x xs ih =>
      intro ys h
      cases ys with
      | nil => simp [hexDigits] at h
      | cons y ys =>
          obtain ⟨hhead, htail⟩ := List.append_inj h rfl
          rw [hexDigits_injective hhead, ih htail]

theorem toHex_injective : Function.Injective toHex := by
  intro xs ys h
  have hchars := String.ofList_injective h
  simp only [List.cons.injEq, true_and] at hchars
  exact flatMap_hexDigits_injective hchars

theorem getRegistrationsResponseMap_eq {api : CandidateValidationApi}
    {candidates : List CandidateRegistrations}
    {entries : CandidateRegistrations → List CandidateRegistrationEntry}
    (h : ∀ candidate ∈ candidates, candidateEntries accountSs58 api candidate =
      .ok (entries candidate)) :
    getRegistrationsResponseMap accountSs58 api candidates =
      .ok (KeyedMap.insertAll ∅ (candidates.map fun candidate =>
        (toHex candidate.stakePoolPublicKey.val, entries candidate))) := by
  unfold getRegistrationsResponseMap
  generalize (∅ : GetRegistrationsResponseMap) = start
  induction candidates generalizing start with
  | nil => rfl
  | cons candidate candidates ih =>
      obtain ⟨hfirst, hrest⟩ := List.forall_mem_cons.mp h
      rw [List.foldlM_cons, hfirst, Fallible.ok_bind, Fallible.ok_bind, ih hrest]
      rfl

/-- The answer has the stake pool of each candidate and no other, with entries that agree with the
selection. -/
theorem registrations_agree_with_selection (runtime : Runtime AccountId AccountKeys)
    (genesisUtxo : UtxoId) (accountSs58 : Bytes 33 → String)
    (candidates : List CandidateRegistrations)
    (hdistinct : (candidates.map fun candidate => candidate.stakePoolPublicKey).Nodup) :
    ∃ map, getRegistrationsResponseMap accountSs58 (candidateValidationApi runtime genesisUtxo)
        candidates = .ok map ∧
      map.keys.Perm (candidates.map fun candidate => toHex candidate.stakePoolPublicKey.val) ∧
      ∀ candidate ∈ candidates, ∃ entries,
        map.lookup (toHex candidate.stakePoolPublicKey.val) = some entries ∧
          Agrees runtime genesisUtxo accountSs58 candidate entries := by
  choose entries hentries hagrees using
    exists_candidateEntries runtime genesisUtxo accountSs58
  have hnodup : ((candidates.map fun candidate =>
      (toHex candidate.stakePoolPublicKey.val, entries candidate)).map (·.1)).Nodup := by
    have hkey : Function.Injective fun key : StakePoolPublicKey => toHex key.val :=
      fun _ _ h => Subtype.ext (toHex_injective h)
    have hhex := hdistinct.map hkey
    rw [List.map_map] at hhex ⊢
    exact hhex
  refine ⟨_, getRegistrationsResponseMap_eq fun candidate _ => hentries candidate, ?_, ?_⟩
  · have hperm := KeyedMap.keys_insertAll_perm hnodup
    rwa [List.map_map] at hperm
  · intro candidate hcandidate
    refine ⟨entries candidate, ?_, hagrees candidate⟩
    exact KeyedMap.lookup_insertAll_of_mem hnodup (List.mem_map.mpr ⟨candidate, hcandidate, rfl⟩)

/-- A runtime that accepts every signature and wants no session keys. -/
def sampleRuntime : Runtime (Bytes 33) ByteString where
  accountId := id
  keyIds := []
  decode := some
  ed25519Verify _ _ _ := true
  ecdsaVerify _ _ _ := true

/-- Two valid registrations at one position, and a candidate without any. -/
def sampleCandidates : List CandidateRegistrations :=
  let utxoId : UtxoId := ⟨.filled 32 1, 0⟩
  let registration (key : UInt8) : RegistrationData :=
    { registrationUtxo := utxoId
      sidechainSignature := List.replicate 64 0
      mainchainSignature := .filled 64 0
      crossChainSignature := []
      sidechainPubKey := List.replicate 33 key
      crossChainPubKey := []
      utxoInfo := ⟨utxoId, 1, 2, 3, 4⟩
      txInputs := [utxoId]
      keys := [] }
  [⟨.filled 32 7, [registration 1, registration 2], some 5⟩, ⟨.filled 32 8, [], none⟩]

theorem registrations_agree_with_selection_tied :
    (sampleCandidates.map fun candidate => candidate.stakePoolPublicKey).Nodup ∧
      (sampleCandidates.map fun candidate =>
        (selectLatestValidCandidate sampleRuntime candidate ⟨.filled 32 0, 0⟩).map
          (·.accountId)) = [some (.filled 33 2), none] ∧
      ∃ map, getRegistrationsResponseMap (fun _ => "")
          (candidateValidationApi sampleRuntime ⟨.filled 32 0, 0⟩) sampleCandidates = .ok map ∧
        map.keys.Perm (sampleCandidates.map fun candidate =>
          toHex candidate.stakePoolPublicKey.val) ∧
        ∀ candidate ∈ sampleCandidates, ∃ entries,
          map.lookup (toHex candidate.stakePoolPublicKey.val) = some entries ∧
            Agrees sampleRuntime ⟨.filled 32 0, 0⟩ (fun _ => "") candidate entries :=
  ⟨by decide +kernel, by decide +kernel,
    registrations_agree_with_selection sampleRuntime _ _ sampleCandidates (by decide +kernel)⟩

end RegistrationsQuery

end PartnerChains
