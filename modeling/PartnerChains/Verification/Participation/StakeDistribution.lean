import PartnerChains.Model.StakeQueries

/-!
# Stake distributions are exact

Rows are folded into the delegations of each pool. A delegator occurs once for each pool, so that
the first amount of a delegator is its only one, and the running total is the sum of the amounts.
-/

namespace PartnerChains.StakeDistributionSource

open Fallible

variable {overflowChecks : Bool}

/-! ## Rows that can be read -/

abbrev ParsedRow := (MainchainKeyHash × DelegatorKey) × ℕ

def parsed? (row : StakePoolDelegationOutputRow) : Option ParsedRow :=
  (getDelegatorKey row).toOption.map fun key => ((row.poolHashRaw, key), row.epochStakeAmount)

variable {amount : ℕ} {key : DelegatorKey} {pool : MainchainKeyHash}

theorem parsed?_eq_some_iff {row : StakePoolDelegationOutputRow} :
    parsed? row = some ((pool, key), amount) ↔
      getDelegatorKey row = .ok key ∧ row.poolHashRaw = pool ∧ row.epochStakeAmount = amount := by
  cases hkey : getDelegatorKey row with
  | error error => simp [parsed?, hkey, Except.toOption]
  | ok key' => simp [parsed?, hkey, Except.toOption, and_assoc, and_left_comm]

def addParsed (overflowChecks : Bool) (res : StakeDistribution) (parsed : ParsedRow) :
    Except Panic StakeDistribution :=
  addDelegation overflowChecks res parsed.1.1 parsed.1.2 parsed.2

theorem foldlM_addRow_eq (rows : List StakePoolDelegationOutputRow) (res : StakeDistribution) :
    rows.foldlM (addRow overflowChecks) res =
      (rows.filterMap parsed?).foldlM (addParsed overflowChecks) res := by
  induction rows generalizing res with
  | nil => rfl
  | cons row rows ih =>
      cases hkey : getDelegatorKey row with
      | error error =>
          have hparsed : parsed? row = none := by simp [parsed?, hkey, Except.toOption]
          have hrow : addRow overflowChecks res row = .ok res := by rw [addRow, hkey]
          rw [List.foldlM_cons, hrow, ok_bind, List.filterMap_cons_none hparsed, ih]
      | ok key =>
          have hparsed := parsed?_eq_some_iff.mpr ⟨hkey, rfl, rfl⟩
          have hrow : addRow overflowChecks res row =
              addParsed overflowChecks res ((row.poolHashRaw, key), row.epochStakeAmount) := by
            rw [addRow, hkey]
            rfl
          rw [List.foldlM_cons, hrow, List.filterMap_cons_some hparsed, List.foldlM_cons]
          exact bind_congr fun res' => ih res'

/-! ## Collecting -/

def poolSum (parsed : List ParsedRow) (pool : MainchainKeyHash) : ℕ :=
  ((parsed.filter fun row => row.1.1 = pool).map Prod.snd).sum

/-- The delegators and the total of a pool are those of the rows. -/
structure CollectedPool (parsed : List ParsedRow) (pool : MainchainKeyHash)
    (delegation : PoolDelegation) : Prop where
  delegators : ∀ key amount, delegation.delegators.get? key = some amount ↔
    ((pool, key), amount) ∈ parsed
  total : delegation.totalStake = poolSum parsed pool

structure Collected (parsed : List ParsedRow) (res : StakeDistribution) : Prop where
  pools : ∀ pool, (res.get? pool).isSome ↔ ∃ row ∈ parsed, row.1.1 = pool
  pool : ∀ pool, CollectedPool parsed pool ((res.get? pool).getD {})

theorem collected_nil : Collected [] .empty where
  pools _ := by simp
  pool _ := ⟨fun _ _ => by simp, rfl⟩

variable {delegation : PoolDelegation} {parsed : List ParsedRow}

theorem CollectedPool.append_other (h : CollectedPool parsed pool delegation) {row : ParsedRow}
    (hother : row.1.1 ≠ pool) : CollectedPool (parsed ++ [row]) pool delegation where
  delegators key amount := by
    rw [h.delegators, List.mem_append, List.mem_singleton]
    refine ⟨.inl, fun hmem => hmem.resolve_right ?_⟩
    rintro rfl
    exact hother rfl
  total := by simp [h.total, poolSum, hother]

theorem CollectedPool.append_own (h : CollectedPool parsed pool delegation)
    (hnew : (pool, key) ∉ parsed.map Prod.fst) (amount : ℕ) :
    CollectedPool (parsed ++ [((pool, key), amount)]) pool
      ⟨delegation.totalStake + amount, delegation.delegators.insert key amount⟩ where
  delegators other otherAmount := by
    rw [OrderedMap.get?_insert, List.mem_append, List.mem_singleton]
    by_cases hother : other = key
    · subst hother
      have hmem : ((pool, other), otherAmount) ∉ parsed := fun hmem =>
        hnew (List.mem_map_of_mem hmem)
      simp [hmem, eq_comm]
    · simp [hother, h.delegators]
  total := by simp [h.total, poolSum]

variable {res : StakeDistribution}

theorem Collected.insert (h : Collected parsed res)
    (hpool : CollectedPool (parsed ++ [((pool, key), amount)]) pool delegation) :
    Collected (parsed ++ [((pool, key), amount)]) (res.insert pool delegation) where
  pools other := by
    rw [OrderedMap.get?_insert]
    by_cases hother : other = pool
    · simp [hother]
    · simp [hother, h.pools, Ne.symm hother]
  pool other := by
    rw [OrderedMap.get?_insert]
    by_cases hother : other = pool
    · subst hother
      simpa using hpool
    · rw [if_neg hother]
      exact (h.pool other).append_other (Ne.symm hother)

theorem exists_addParsed (h : Collected parsed res) {row : ParsedRow}
    (hnew : row.1 ∉ parsed.map Prod.fst) (hsum : poolSum (parsed ++ [row]) row.1.1 < 2 ^ 64) :
    ∃ res', addParsed overflowChecks res row = .ok res' ∧ Collected (parsed ++ [row]) res' := by
  obtain ⟨⟨pool, key⟩, amount⟩ := row
  have hpool := h.pool pool
  have hown := hpool.append_own hnew amount
  rw [← hown.total] at hsum
  have hnone : (((res.get? pool).getD {}).delegators.get? key) = none := by
    refine Option.eq_none_iff_forall_ne_some.mpr fun stored hstored => ?_
    exact hnew (List.mem_map.mpr ⟨_, (hpool.delegators key stored).mp hstored, rfl⟩)
  have hadd : Checked.addWith overflowChecks 64 ((res.get? pool).getD {}).totalStake amount =
      .ok (((res.get? pool).getD {}).totalStake + amount) :=
    Checked.addWith_eq_ok_iff.mpr ⟨fun _ => hsum, Nat.mod_eq_of_lt hsum⟩
  refine ⟨_, ?_, h.insert hown⟩
  simp only [addParsed, addDelegation, hnone, hadd, ok_bind, Option.isSome_none,
    Bool.false_eq_true, if_false]

theorem exists_foldlM_addParsed {parsed rest : List ParsedRow} (h : Collected parsed res)
    (hnodup : ((parsed ++ rest).map Prod.fst).Nodup)
    (hsum : ∀ pool, poolSum (parsed ++ rest) pool < 2 ^ 64) :
    ∃ res', rest.foldlM (addParsed overflowChecks) res = .ok res' ∧
      Collected (parsed ++ rest) res' := by
  induction rest generalizing parsed res with
  | nil => exact ⟨res, rfl, by rwa [List.append_nil]⟩
  | cons row rest ih =>
      have hsplit : parsed ++ row :: rest = (parsed ++ [row]) ++ rest := by simp
      rw [hsplit] at hnodup hsum ⊢
      have hnew : row.1 ∉ parsed.map Prod.fst := by
        rw [List.map_append, List.nodup_append, List.map_append, List.nodup_append] at hnodup
        intro hmem
        exact hnodup.1.2.2 _ hmem _ (List.mem_singleton_self _) rfl
      have hlt : poolSum (parsed ++ [row]) row.1.1 < 2 ^ 64 := by
        refine lt_of_le_of_lt ?_ (hsum row.1.1)
        rw [poolSum, poolSum, List.filter_append _ rest, List.map_append, List.sum_append]
        exact Nat.le_add_right _ _
      obtain ⟨next, hnext, hcollected⟩ := exists_addParsed h hnew hlt
      obtain ⟨res', hres', hall⟩ := ih hcollected hnodup hsum
      refine ⟨res', ?_, hall⟩
      rw [List.foldlM_cons, hnext, ok_bind, hres']

theorem CollectedPool.total_eq (h : CollectedPool parsed pool delegation)
    (hnodup : (parsed.map Prod.fst).Nodup) :
    delegation.totalStake = (delegation.delegators.entries.map Prod.snd).sum := by
  have hperm : delegation.delegators.entries.Perm
      ((parsed.filter fun row => row.1.1 = pool).map fun row => (row.1.2, row.2)) := by
    refine (List.perm_ext_iff_of_nodup delegation.delegators.nodup_entries ?_).mpr ?_
    · refine List.Nodup.map_on ?_ (hnodup.of_map.filter _)
      rintro ⟨⟨_, key⟩, amount⟩ hrow ⟨⟨_, key'⟩, amount'⟩ hrow' heq
      have hpool := (List.mem_filter.mp hrow).2
      have hpool' := (List.mem_filter.mp hrow').2
      simp_all
    · rintro ⟨key, amount⟩
      rw [OrderedMap.mem_entries_iff, h.delegators]
      simp [List.mem_map, List.mem_filter]
  rw [h.total, poolSum, (hperm.map Prod.snd).sum_eq, List.map_map]
  rfl

/-! ## The query -/

theorem encodeInt4_eq_iff (number : Word31) (epoch : UInt32) :
    (number.val : ℤ) = encodeInt4 epoch ↔ number.val = epoch.toNat := by
  have hnumber := number.isLt
  have hepoch := epoch.toBitVec.isLt
  have hto : epoch.toBitVec.toNat = epoch.toNat := rfl
  rw [encodeInt4, BitVec.toInt_eq_toNat_cond]
  split_ifs <;> omega

theorem getStakePoolDelegationsForPools_eq (db : Database) (epoch : UInt32)
    (pools : List MainchainKeyHash) :
    getStakePoolDelegationsForPools db epoch pools =
      ((delegations db).filter fun delegation => delegation.epoch.val = epoch.toNat ∧
        delegation.row.poolHashRaw ∈ pools).map Delegation.row := by
  simp only [getStakePoolDelegationsForPools, delegations, bind, List.filter_flatMap,
    List.map_flatMap, encodeInt4_eq_iff]
  refine List.flatMap_congr fun epochStake _ => List.flatMap_congr fun stakeAddress _ =>
    List.flatMap_congr fun poolHash _ => ?_
  by_cases hamount : 0 < epochStake.amount
  · by_cases hasked : epochStake.epochNo.val = epoch.toNat ∧ poolHash.hashRaw ∈ pools
    · simp [hamount, hasked]
    · rw [if_pos hamount, if_neg (fun h => hasked ⟨h.1, h.2.2⟩)]
      simp [hasked]
  · simp [hamount]

/-! ## Keys of delegators -/

theorem getDelegatorKey_eq_ok {row : StakePoolDelegationOutputRow}
    (h : getDelegatorKey row = .ok key) :
    ∃ header rest, row.stakeAddressHashRaw.val = header :: rest ∧
      ((header = 0xe0 ∨ header = 0xe1) ∧ (∃ length, key = .stakeKeyHash ⟨rest, length⟩) ∨
        (header = 0xf0 ∨ header = 0xf1) ∧
          ∃ length scriptHash, key = .scriptKeyHash ⟨rest, length⟩ scriptHash) := by
  rw [getDelegatorKey] at h
  split at h
  · rename_i infallible _
    cases infallible
  · rename_i header rest length haddress
    refine ⟨header, rest, by rw [haddress], ?_⟩
    split_ifs at h with hkey hscript
    · exact .inl ⟨hkey, _, (Except.ok.inj h).symm⟩
    · split at h
      · exact .inr ⟨hscript, _, _, (Except.ok.inj h).symm⟩
      · cases h

theorem address_eq_of_getDelegatorKey {row row' : StakePoolDelegationOutputRow}
    (h : getDelegatorKey row = .ok key) (h' : getDelegatorKey row' = .ok key)
    (hnetwork : row.stakeAddressHashRaw.val.headD 0 &&& 0x0f =
      row'.stakeAddressHashRaw.val.headD 0 &&& 0x0f) :
    row.stakeAddressHashRaw = row'.stakeAddressHashRaw := by
  obtain ⟨header, rest, haddress, hkind⟩ := getDelegatorKey_eq_ok h
  obtain ⟨header', rest', haddress', hkind'⟩ := getDelegatorKey_eq_ok h'
  rw [haddress, haddress', List.headD_cons, List.headD_cons] at hnetwork
  refine Subtype.ext ?_
  rw [haddress, haddress']
  -- a user key and a script key differ, and the network tells the headers of one kind apart
  rcases hkind with ⟨hheader, length, rfl⟩ | ⟨hheader, length, script, rfl⟩ <;>
    rcases hkind' with ⟨hheader', length', hkey⟩ | ⟨hheader', length', script', hkey⟩
  · obtain rfl : rest = rest' := congrArg Subtype.val (DelegatorKey.stakeKeyHash.inj hkey)
    rcases hheader with rfl | rfl <;> rcases hheader' with rfl | rfl <;>
      first | rfl | exact absurd hnetwork (by decide)
  · cases hkey
  · cases hkey
  · obtain rfl : rest = rest' :=
      congrArg Subtype.val (DelegatorKey.scriptKeyHash.inj hkey).1
    rcases hheader with rfl | rfl <;> rcases hheader' with rfl | rfl <;>
      first | rfl | exact absurd hnetwork (by decide)

/-! ## Answers of the database -/

variable {db : Database} {epoch : UInt32} {pools : List MainchainKeyHash}

/-- The rows that can be read, in the order in which the database returns them. -/
def answered (order : RowOrder) (db : Database) (epoch : UInt32)
    (pools : List MainchainKeyHash) : List ParsedRow :=
  (order.arrange (getStakePoolDelegationsForPools db epoch pools)).filterMap parsed?

theorem answered_perm (order : RowOrder) :
    (answered order db epoch pools).Perm
      (((delegations db).filter fun delegation => delegation.epoch.val = epoch.toNat ∧
        delegation.row.poolHashRaw ∈ pools).filterMap fun delegation =>
          parsed? delegation.row) := by
  rw [answered, getStakePoolDelegationsForPools_eq]
  refine ((order.perm _).filterMap parsed?).trans ?_
  rw [List.filterMap_map]
  exact .refl _

theorem mem_answered {order : RowOrder} :
    ((pool, key), amount) ∈ answered order db epoch pools ↔
      pool ∈ pools ∧ Delegates db epoch pool key amount := by
  rw [(answered_perm order).mem_iff]
  simp only [List.mem_filterMap, List.mem_filter, decide_eq_true_eq, parsed?_eq_some_iff,
    Delegates, Delegation.IsOf]
  constructor
  · rintro ⟨delegation, ⟨hmem, hepoch, hpool⟩, hkey, rfl, hamount⟩
    exact ⟨hpool, delegation, hmem, ⟨hepoch, rfl⟩, hkey, hamount⟩
  · rintro ⟨hpool, delegation, hmem, ⟨hepoch, rfl⟩, hkey, hamount⟩
    exact ⟨delegation, ⟨hmem, hepoch, hpool⟩, hkey, rfl, hamount⟩

theorem Proper.nodup_answered (h : Proper db) (order : RowOrder) :
    ((answered order db epoch pools).map Prod.fst).Nodup := by
  rw [((answered_perm order).map Prod.fst).nodup_iff, List.nodup_iff_pairwise_ne,
    List.pairwise_map, List.pairwise_filterMap]
  obtain ⟨network, hnetwork⟩ := h.network
  refine ((List.pairwise_map.mp h.distinct).filter _).imp_of_mem ?_
  intro a b ha hb hne
  rintro ⟨⟨pool, key⟩, amount⟩ hparsed ⟨⟨pool', key'⟩, amount'⟩ hparsed' heq
  obtain ⟨hmem, hasked⟩ := List.mem_filter.mp ha
  obtain ⟨hmem', hasked'⟩ := List.mem_filter.mp hb
  obtain ⟨hkey, hpool, -⟩ := parsed?_eq_some_iff.mp hparsed
  obtain ⟨hkey', hpool', -⟩ := parsed?_eq_some_iff.mp hparsed'
  obtain ⟨rfl, rfl⟩ := Prod.mk.inj heq
  have haddress := address_eq_of_getDelegatorKey hkey hkey'
    ((hnetwork a hmem).trans (hnetwork b hmem').symm)
  have hepoch : a.epoch = b.epoch := Fin.ext
    ((of_decide_eq_true hasked).1.trans (of_decide_eq_true hasked').1.symm)
  exact hne (by rw [hepoch, haddress, hpool, hpool'])

theorem sublist_parsed (delegations : List Delegation) (pool : MainchainKeyHash) :
    (((delegations.filterMap fun delegation => parsed? delegation.row).filter
      fun row => row.1.1 = pool).map Prod.snd).Sublist
      ((delegations.filter fun delegation => delegation.row.poolHashRaw = pool).map
        fun delegation => delegation.row.epochStakeAmount) := by
  induction delegations with
  | nil => exact List.Sublist.refl _
  | cons delegation delegations ih =>
      cases hparsed : parsed? delegation.row with
      | none =>
          simp only [List.filterMap_cons, hparsed]
          exact ih.trans (((List.sublist_cons_self _ _).filter _).map _)
      | some row =>
          obtain ⟨⟨pool', key⟩, amount⟩ := row
          obtain ⟨-, rfl, rfl⟩ := parsed?_eq_some_iff.mp hparsed
          simp only [List.filterMap_cons, hparsed]
          by_cases hpool : delegation.row.poolHashRaw = pool
          · simpa [hpool] using ih
          · simpa [hpool] using ih

theorem Proper.poolSum_answered_lt (h : Proper db) (order : RowOrder) (pool : MainchainKeyHash) :
    poolSum (answered order db epoch pools) pool < 2 ^ 64 := by
  refine lt_of_le_of_lt ?_ (h.sum_lt epoch pool)
  rw [poolSum, (((answered_perm order).filter _).map _).sum_eq]
  refine ((sublist_parsed _ pool).trans ?_).sum_le_sum fun _ _ => Nat.zero_le _
  refine List.Sublist.map _ ?_
  rw [List.filter_filter]
  refine List.monotone_filter_right _ fun delegation hdelegation => ?_
  simp only [Bool.and_eq_true, decide_eq_true_eq] at hdelegation
  exact decide_eq_true ⟨hdelegation.2.1, hdelegation.1⟩

theorem Proper.exists_rowsToDistribution (h : Proper db) (overflowChecks : Bool)
    (order : RowOrder) (epoch : UInt32) (pools : List MainchainKeyHash) :
    ∃ distribution, rowsToDistribution overflowChecks
        (order.arrange (getStakePoolDelegationsForPools db epoch pools)) = .ok distribution ∧
      ExactFor db epoch pools distribution := by
  have hrows : rowsToDistribution overflowChecks
      (order.arrange (getStakePoolDelegationsForPools db epoch pools)) =
        (answered order db epoch pools).foldlM (addParsed overflowChecks) .empty :=
    foldlM_addRow_eq _ _
  rw [hrows]
  have hnodup : ((answered order db epoch pools).map Prod.fst).Nodup := h.nodup_answered order
  obtain ⟨distribution, hfold, hcollected⟩ : ∃ distribution,
      (answered order db epoch pools).foldlM (addParsed overflowChecks) .empty =
        .ok distribution ∧ Collected ([] ++ answered order db epoch pools) distribution :=
    exists_foldlM_addParsed collected_nil hnodup (h.poolSum_answered_lt order)
  rw [List.nil_append] at hcollected
  refine ⟨distribution, hfold, fun pool => ?_, fun pool delegation hdelegation => ?_⟩
  · rw [hcollected.pools]
    constructor
    · rintro ⟨⟨⟨_, key⟩, amount⟩, hrow, rfl⟩
      obtain ⟨hpool, hdelegates⟩ := mem_answered.mp hrow
      exact ⟨hpool, key, amount, hdelegates⟩
    · rintro ⟨hpool, key, amount, hdelegates⟩
      exact ⟨_, mem_answered.mpr ⟨hpool, hdelegates⟩, rfl⟩
  · have hpool := hcollected.pool pool
    rw [hdelegation, Option.getD_some] at hpool
    refine ⟨fun key amount => ?_, hpool.total_eq hnodup⟩
    rw [hpool.delegators, mem_answered]
    refine and_iff_right_of_imp fun _ => ?_
    obtain ⟨⟨⟨_, key⟩, amount⟩, hrow, rfl⟩ :=
      (hcollected.pools pool).mp (by rw [hdelegation]; rfl)
    exact (mem_answered.mp hrow).1

/-! ## The cache -/

variable {L : Type → Type → Type} [LruCache L]

/-- Every entry of the cache is exact, and there is one for pools with a delegator only. -/
def Transparent (db : Database) (cache : Cache L) : Prop :=
  LruCache.Forall cache fun key delegation => Exact db key.1 key.2 delegation ∧
    ∃ delegator amount, Delegates db key.1 key.2 delegator amount

/-- What is known after some pools were looked up. -/
structure LookedUp (db : Database) (epoch : UInt32) (done : List MainchainKeyHash)
    (state : LookupState L) : Prop where
  cache : Transparent db state.cache
  asked : ∀ pool, pool ∈ done ↔
    pool ∈ state.poolHashesToQuery ∨ (state.stakeDistribution.get? pool).isSome
  exact : ∀ pool delegation, state.stakeDistribution.get? pool = some delegation →
    Exact db epoch pool delegation ∧ ∃ key amount, Delegates db epoch pool key amount

theorem LookedUp.step {done : List MainchainKeyHash} {state : LookupState L}
    (h : LookedUp db epoch done state) (pool : MainchainKeyHash) :
    LookedUp db epoch (done ++ [pool]) (lookupPool epoch state pool) := by
  have hcache := LruCache.Forall.get h.cache (epoch, pool)
  rw [lookupPool, getDistributionForPool]
  cases hget : LruCache.get state.cache (epoch, pool) with
  | mk found cache =>
      rw [hget] at hcache
      cases found with
      | none =>
          refine ⟨hcache, fun other => ?_, h.exact⟩
          simp [h.asked, or_right_comm]
      | some delegation =>
          have hfound := LruCache.Forall.of_get h.cache (by rw [hget])
          refine ⟨hcache, fun other => ?_, fun other delegation' hother => ?_⟩
          · rw [List.mem_append, List.mem_singleton, h.asked, OrderedMap.get?_insert]
            by_cases hsame : other = pool
            · simp [hsame]
            · simp [hsame]
          · rw [OrderedMap.get?_insert] at hother
            split_ifs at hother with hsame
            · obtain rfl := Option.some.inj hother
              subst hsame
              exact hfound
            · exact h.exact other delegation' hother

theorem LookedUp.foldl {done : List MainchainKeyHash} {state : LookupState L}
    (h : LookedUp db epoch done state) (pools : List MainchainKeyHash) :
    LookedUp db epoch (done ++ pools) (pools.foldl (lookupPool epoch) state) := by
  induction pools generalizing done state with
  | nil => rwa [List.append_nil]
  | cons pool pools ih =>
      rw [List.append_cons]
      exact ih (h.step pool)

variable {cache : Cache L}

theorem Transparent.put (h : Transparent db cache) {distribution : StakeDistribution}
    (hexact : ExactFor db epoch pools distribution) :
    Transparent db (putDistributionForPools epoch distribution cache) := by
  have hentries : ∀ entry ∈ distribution.entries, Exact db epoch entry.1 entry.2 ∧
      ∃ key amount, Delegates db epoch entry.1 key amount := by
    rintro ⟨pool, delegation⟩ hentry
    have hget := OrderedMap.mem_entries_iff.mp hentry
    exact ⟨hexact.exact pool delegation hget, ((hexact.pools pool).mp (by rw [hget]; rfl)).2⟩
  rw [putDistributionForPools]
  generalize distribution.entries = entries at hentries
  induction entries generalizing cache with
  | nil => exact h
  | cons entry entries ih =>
      obtain ⟨hentry, hrest⟩ := List.forall_mem_cons.mp hentries
      exact ih (LruCache.Forall.put h hentry) hrest

/-! ## Queries -/

/-- Every query is answered, exactly, and leaves a cache with exact entries. -/
theorem Transparent.query (h : Transparent db cache) (hproper : Proper db) (overflowChecks : Bool)
    (order : RowOrder) (epoch : UInt32) (pools : List MainchainKeyHash) :
    ∃ result next, getStakePoolDelegationDistributionForPools overflowChecks order db epoch pools
        cache = .ok (result, next) ∧
      ExactFor db epoch pools result ∧ Transparent db next := by
  have hstart : LookedUp db epoch [] ⟨[], .empty, cache⟩ :=
    ⟨h, fun pool => by simp, fun pool delegation hget => by cases hget⟩
  have hfound := hstart.foldl pools
  rw [List.nil_append] at hfound
  rw [getStakePoolDelegationDistributionForPools]
  generalize pools.foldl (lookupPool epoch) ⟨[], .empty, cache⟩ = found at hfound ⊢
  obtain ⟨queried, hqueried, hexact⟩ :=
    hproper.exists_rowsToDistribution overflowChecks order epoch found.poolHashesToQuery
  refine ⟨_, _, by rw [hqueried, ok_bind], ⟨fun pool => ?_, fun pool delegation hget => ?_⟩,
    hfound.cache.put hexact⟩
  · rw [OrderedMap.get?_append, Option.isSome_or, Bool.or_eq_true, hexact.pools, hfound.asked]
    constructor
    · rintro (⟨hquery, hdelegates⟩ | hsome)
      · exact ⟨.inl hquery, hdelegates⟩
      · obtain ⟨delegation, hdelegation⟩ := Option.isSome_iff_exists.mp hsome
        exact ⟨.inr hsome, (hfound.exact pool delegation hdelegation).2⟩
    · rintro ⟨hasked, hdelegates⟩
      exact hasked.imp_left fun hquery => ⟨hquery, hdelegates⟩
  · rw [OrderedMap.get?_append, Option.or_eq_some_iff] at hget
    rcases hget with hqueried | ⟨-, hcached⟩
    · exact hexact.exact pool delegation hqueried
    · exact (hfound.exact pool delegation hcached).1

theorem transparent_run (hproper : Proper db) {overflowChecks : Bool} {cacheSize : ℕ}
    {positive : 0 < cacheSize} {trace : List Event}
    (run : (system overflowChecks db cacheSize positive).Run trace cache) :
    Transparent db cache ∧ ∀ event ∈ trace,
      ExactFor db event.epoch event.poolHashes event.result := by
  refine run.invariant (P := fun trace cache => Transparent db cache ∧ ∀ event ∈ trace,
    ExactFor db event.epoch event.poolHashes event.result) ?_ ?_
  · rintro cache rfl
    exact ⟨LruCache.forall_new positive, by simp⟩
  · rintro trace cache event next ⟨hcache, htrace⟩ ⟨order, hquery⟩
    obtain ⟨result, next', hok, hexact, hnext⟩ :=
      hcache.query hproper overflowChecks order event.epoch event.poolHashes
    obtain ⟨rfl, rfl⟩ := Prod.mk.inj (Except.ok.inj (hok.symm.trans hquery))
    refine ⟨hnext, fun other hother => ?_⟩
    rcases List.mem_append.mp hother with hold | hlast
    · exact htrace other hold
    · rw [List.mem_singleton.mp hlast]
      exact hexact

/-- In every sequence of queries, with any cache, each query is answered with exactly the
delegations in the tables. -/
theorem stake_distribution_exact (overflowChecks : Bool) (db : Database) (hproper : Proper db)
    (cacheSize : ℕ) (positive : 0 < cacheSize) (trace : List Event) (cache : Cache L)
    (run : (system overflowChecks db cacheSize positive).Run trace cache) :
    (∀ event ∈ trace, ExactFor db event.epoch event.poolHashes event.result) ∧
      ∀ order epoch poolHashes, ∃ result next,
        getStakePoolDelegationDistributionForPools overflowChecks order db epoch poolHashes
          cache = .ok (result, next) ∧ ExactFor db epoch poolHashes result := by
  obtain ⟨hcache, htrace⟩ := transparent_run hproper run
  refine ⟨htrace, fun order epoch poolHashes => ?_⟩
  obtain ⟨result, next, hquery, hexact, -⟩ :=
    hcache.query hproper overflowChecks order epoch poolHashes
  exact ⟨result, next, hquery, hexact⟩

/-- A user, a script and an address that cannot be read delegate to one of two pools. -/
private def threeDelegators : Database where
  epochStake := [⟨1, 1, 5, 188⟩, ⟨2, 1, 7, 188⟩, ⟨3, 1, 9, 188⟩, ⟨1, 2, 0, 188⟩]
  stakeAddress :=
    [⟨1, ⟨0xe1 :: List.replicate 28 1, rfl⟩, none⟩,
      ⟨2, ⟨0xf1 :: List.replicate 28 2, rfl⟩, some (.filled 28 3)⟩,
      ⟨3, ⟨0x61 :: List.replicate 28 4, rfl⟩, none⟩]
  poolHash := [⟨1, .filled 28 1⟩, ⟨2, .filled 28 2⟩]

private theorem proper_threeDelegators : Proper threeDelegators where
  distinct := by decide
  network := ⟨1, by decide⟩
  sum_lt epoch pool := by
    refine lt_of_le_of_lt (List.Sublist.sum_le_sum (List.filter_sublist.map _)
      fun _ _ => Nat.zero_le _) ?_
    decide

/-- A pool is asked for, and then twice in one query, with room for one pool. -/
theorem stake_distribution_exact_one_entry : ∃ (cache : Cache RecentlyUsed) (event : Event),
    (system true threeDelegators 1 Nat.one_pos).Run [event] cache ∧
      ExactFor threeDelegators event.epoch event.poolHashes event.result ∧
      ∃ result next, getStakePoolDelegationDistributionForPools true (.stable _) threeDelegators
          188 [.filled 28 1, .filled 28 2, .filled 28 1] cache = .ok (result, next) ∧
        ExactFor threeDelegators 188 [.filled 28 1, .filled 28 2, .filled 28 1] result := by
  obtain ⟨result, cache, hquery⟩ : ∃ result cache, getStakePoolDelegationDistributionForPools true
      (.stable _) threeDelegators 188 [.filled 28 1]
        (LruCache.new 1 Nat.one_pos : Cache RecentlyUsed) = .ok (result, cache) := ⟨_, _, rfl⟩
  have run : (system true threeDelegators 1 Nat.one_pos).Run
      ([] ++ [⟨188, [.filled 28 1], result⟩]) cache :=
    .step (.start rfl) ⟨.stable _, hquery⟩
  have hall := stake_distribution_exact true threeDelegators proper_threeDelegators 1
    Nat.one_pos _ _ run
  exact ⟨_, _, run, hall.1 _ (by simp), hall.2 (.stable _) 188 _⟩

end PartnerChains.StakeDistributionSource
