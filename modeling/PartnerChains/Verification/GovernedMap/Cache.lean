import PartnerChains.Model.GovernedMapCalls
import PartnerChains.Verification.GovernedMap.Queries

/-!
# The cache of the governed map

The cache takes the range it covers from the changes it holds, not from the range that was
searched. A call that names its first block is still answered in full; a call from the start
may be answered from a cache that begins later.
-/

namespace PartnerChains.GovernedMap

open DbSync Relational

variable {cfg : TxInConfiguration} {db : Database} {scripts : MainChainScriptsV1}

/-- All changes after `since` and up to `upTo`, in an order that the query allows. -/
def AllChanges (cfg : TxInConfiguration) (db : Database) (scripts : MainChainScriptsV1)
    (since : Option ℕ) (upTo : ℕ) (changes : List (String × Option ByteString)) : Prop :=
  ∃ rows : List DatumChangeRow,
    rows.Perm ((changeRows cfg db scripts since upTo).filter (·.write.isSome)) ∧
      rows.Pairwise (fun a b => a.orderKey ≤ b.orderKey) ∧
      changes = rows.filterMap DatumChangeRow.write

/-! ## What the cache holds -/

/-- The cache holds what one query for the scripts has found. -/
structure Cache.FilledBy (cfg : TxInConfiguration) (db : Database) (cache : Cache)
    (scripts : MainChainScriptsV1) (order : Arrangement DatumChangeRow.orderKey)
    (since : Option ℕ) (searched : ℕ) : Prop where
  address : cache.address = some scripts.validatorAddress
  policyId : cache.policyId = some scripts.assetPolicyId
  changes : cache.changes = (order.arrange (changeRows cfg db scripts since searched)).filterMap
    DatumChangeRow.change
  lowest : cache.lowestBlockNumber = some ((cache.changes.map (·.blockNo)).min?.getD 0)
  highest : cache.highestBlockNumber = some ((cache.changes.map (·.blockNo)).max?.getD 0)

/-- The cache is unused, or filled by one query. -/
def Cache.Sound (cfg : TxInConfiguration) (db : Database) (cache : Cache) : Prop :=
  cache.highestBlockNumber = none ∨
    ∃ scripts order since searched, cache.FilledBy cfg db scripts order since searched

theorem Cache.setMainChainScripts_address (cache : Cache) (scripts : MainChainScriptsV1) :
    (cache.setMainChainScripts scripts).address = some scripts.validatorAddress ∧
      (cache.setMainChainScripts scripts).policyId = some scripts.assetPolicyId := by
  unfold setMainChainScripts
  split
  · exact ⟨rfl, rfl⟩
  · rename_i h
    simpa using h

theorem Cache.Sound.setMainChainScripts {cache : Cache} (h : cache.Sound cfg db)
    (scripts : MainChainScriptsV1) : (cache.setMainChainScripts scripts).Sound cfg db := by
  unfold Cache.setMainChainScripts
  split
  · exact .inl rfl
  · exact h

theorem Cache.filledBy_update {cache : Cache} {order : Arrangement DatumChangeRow.orderKey}
    {since : Option ℕ} {searched : ℕ} {changes : List Change}
    (h : getChangesInRangeToCache order db cfg since searched scripts = .ok changes) :
    ((cache.setMainChainScripts scripts).update changes).FilledBy cfg db scripts order since
      searched where
  address := (cache.setMainChainScripts_address scripts).1
  policyId := (cache.setMainChainScripts_address scripts).2
  changes := (getChangesInRangeToCache_eq_ok_iff.mp h).2
  lowest := rfl
  highest := rfl

theorem Cache.Sound.execute {cache : Cache} (h : cache.Sound cfg db) (cacheSize : UInt16)
    (call : CachedCall db) : (call.execute cacheSize cfg cache).2.Sound cfg db := by
  have hscripts := h.setMainChainScripts call.scripts
  unfold CachedCall.execute getMappingChangesCached
  cases resolveRange call.blocks call.sinceMcBlock call.upToMcBlock with
  | error error => exact hscripts
  | ok range =>
      obtain ⟨since, upTo⟩ := range
      cases hcached : (cache.setMainChainScripts call.scripts).getChangesInRange since upTo with
      | some changes => simpa only [hcached] using hscripts
      | none =>
          simp only [hcached]
          cases hfetch : fetchChanges cacheSize call.order cfg call.blocks since upTo
              call.scripts with
          | error error => exact hscripts
          | ok changes =>
              obtain ⟨stable, -, hchanges⟩ := Fallible.bind_eq_ok_iff.mp hfetch
              exact .inr ⟨_, _, _, _, Cache.filledBy_update hchanges⟩

theorem Cache.Sound.serve {cache : Cache} (h : cache.Sound cfg db) {cacheSize : UInt16}
    {calls : List (CachedCall db)} {served : Served db}
    (hmem : served ∈ serve cacheSize cfg cache calls) :
    served.cache.Sound cfg db ∧
      served.result = (served.call.execute cacheSize cfg served.cache).1 := by
  induction calls generalizing cache with
  | nil => cases hmem
  | cons call calls ih =>
      rcases List.mem_cons.mp hmem with rfl | hrest
      · exact ⟨h, rfl⟩
      · exact ih (h.execute cacheSize call) hrest

/-! ## Answers -/

theorem AllChanges.length_eq {since : Option ℕ} {upTo : ℕ}
    {changes : List (String × Option ByteString)}
    (h : AllChanges cfg db scripts since upTo changes) :
    changes.length = ((changeRows cfg db scripts since upTo).filter (·.write.isSome)).length := by
  obtain ⟨rows, hperm, -, rfl⟩ := h
  have hrows : rows.filter (·.write.isSome) = rows :=
    List.filter_eq_self.mpr fun row hrow => (List.mem_filter.mp (hperm.mem_iff.mp hrow)).2
  rw [List.length_filterMap_eq_countP, List.countP_eq_length_filter, hrows, hperm.length_eq]

/-- What a query has found in a range is all there is exactly when the query has searched
every block of the range with a change. -/
theorem allChanges_filter_iff (order : Arrangement DatumChangeRow.orderKey)
    {first since : Option ℕ} {searched upTo : ℕ} :
    AllChanges cfg db scripts since upTo
        (((order.arrange (changeRows cfg db scripts first searched)).filter fun row =>
          InRange since upTo row.blockNo).filterMap DatumChangeRow.write) ↔
      ∀ row ∈ changeRows cfg db scripts since upTo, row.write.isSome = true →
        InRange first searched row.blockNo := by
  set found := (order.arrange (changeRows cfg db scripts first searched)).filter fun row =>
    InRange since upTo row.blockNo with hfound
  set all := (changeRows cfg db scripts since upTo).filter (·.write.isSome) with hall
  have hmem {row : DatumChangeRow} :
      row ∈ found.filter (·.write.isSome) ↔ row ∈ all ∧ InRange first searched row.blockNo := by
    simp only [hfound, hall, List.mem_filter, (order.perm _).mem_iff, mem_changeRows,
      decide_eq_true_eq]
    tauto
  have hnodup : (found.filter (·.write.isSome)).Nodup :=
    (((order.perm _).nodup_iff.mpr (changeRows_nodup _ _)).filter _).filter _
  constructor
  · intro h row hrow hsome
    have hlength := h.length_eq
    rw [List.length_filterMap_eq_countP, List.countP_eq_length_filter] at hlength
    have hsub : found.filter (·.write.isSome) ⊆ all := fun row hrow => (hmem.mp hrow).1
    have hperm' := (hnodup.subperm hsub).perm_of_length_le hlength.ge
    exact (hmem.mp (hperm'.mem_iff.mpr (List.mem_filter.mpr ⟨hrow, hsome⟩))).2
  · intro h
    refine ⟨found.filter (·.write.isSome), ?_, ?_, ?_⟩
    · refine (List.perm_ext_iff_of_nodup hnodup ((changeRows_nodup _ _).filter _)).mpr fun row => ?_
      rw [hmem]
      exact and_iff_left_of_imp fun hrow =>
        h row (List.mem_of_mem_filter hrow) (List.mem_filter.mp hrow).2
    · exact ((order.sorted _).filter _).filter _
    · refine Eq.symm ((List.filterMap_filter ..).trans (List.filterMap_congr fun row _ => ?_))
      cases row.write <;> rfl

/-! ## Hits -/

section Hit

variable {cache : Cache} {order : Arrangement DatumChangeRow.orderKey} {first since : Option ℕ}
  {searched upTo : ℕ}

theorem Cache.FilledBy.mem_changes_iff (h : cache.FilledBy cfg db scripts order first searched)
    {change : Change} :
    change ∈ cache.changes ↔
      ∃ row ∈ changeRows cfg db scripts first searched, row.change = some change := by
  rw [h.changes, List.mem_filterMap]
  simp only [(order.perm _).mem_iff]

theorem Cache.FilledBy.inRange (h : cache.FilledBy cfg db scripts order first searched)
    {change : Change} (hmem : change ∈ cache.changes) : InRange first searched change.blockNo := by
  obtain ⟨row, hrow, hchange⟩ := h.mem_changes_iff.mp hmem
  obtain ⟨write, -, rfl⟩ := Option.map_eq_some_iff.mp hchange
  exact (mem_changeRows.mp hrow).1

/-- The first and the last block of the cache are blocks that were searched, unless nothing
was found. -/
theorem Cache.FilledBy.bounds (h : cache.FilledBy cfg db scripts order first searched)
    {lowest highest : ℕ} (hlowest : cache.lowestBlockNumber = some lowest)
    (hhighest : cache.highestBlockNumber = some highest) :
    cache.changes = [] ∧ highest = 0 ∨
      InRange first searched lowest ∧ InRange first searched highest ∧
        ∀ change ∈ cache.changes, lowest ≤ change.blockNo := by
  rw [h.lowest, Option.some.injEq] at hlowest
  rw [h.highest, Option.some.injEq] at hhighest
  have hblock {block : ℕ} (hmem : block ∈ cache.changes.map (·.blockNo)) :
      InRange first searched block := by
    obtain ⟨change, hchange, rfl⟩ := List.mem_map.mp hmem
    exact h.inRange hchange
  cases hmax : (cache.changes.map (·.blockNo)).max? with
  | none =>
      rw [hmax] at hhighest
      rw [List.max?_eq_none_iff, List.map_eq_nil_iff] at hmax
      exact .inl ⟨hmax, hhighest.symm⟩
  | some block =>
      obtain ⟨least, hmin⟩ : ∃ least, (cache.changes.map (·.blockNo)).min? = some least := by
        rw [← Option.isSome_iff_exists, List.isSome_min?_iff]
        intro hnil
        rw [hnil] at hmax
        cases hmax
      rw [hmax] at hhighest
      rw [hmin] at hlowest
      subst hlowest hhighest
      obtain ⟨hmem, hleast⟩ := List.min?_eq_some_iff.mp hmin
      refine .inr ⟨hblock hmem, hblock (List.max?_mem hmax), fun change hchange => ?_⟩
      exact hleast _ (List.mem_map_of_mem hchange)

/-- A hit from the start gives all changes exactly when none lies before the cached ones. -/
theorem Cache.FilledBy.allChanges_none_iff
    (h : cache.FilledBy cfg db scripts order first searched) {lowest highest : ℕ}
    (hlowest : cache.lowestBlockNumber = some lowest)
    (hhighest : cache.highestBlockNumber = some highest) (hup : upTo ≤ highest) :
    AllChanges cfg db scripts none upTo (filterChangesInRange cache.changes none upTo) ↔
      ∀ row ∈ changeRows cfg db scripts none upTo, row.write.isSome = true →
        cache.changes ≠ [] ∧ lowest ≤ row.blockNo := by
  have hbounds := h.bounds hlowest hhighest
  rw [h.changes, filterChangesInRange_filterMap, allChanges_filter_iff, ← h.changes]
  refine forall₃_congr fun row hrow hsome => ?_
  obtain ⟨⟨-, hto⟩, htouches⟩ := mem_changeRows.mp hrow
  constructor
  · intro hrange
    obtain ⟨write, hwrite⟩ := Option.isSome_iff_exists.mp hsome
    have hchange : row.change = some ⟨row.blockNo, write.1, write.2⟩ := by
      rw [DatumChangeRow.change, hwrite]
      rfl
    have hmem := h.mem_changes_iff.mpr ⟨row, mem_changeRows.mpr ⟨hrange, htouches⟩, hchange⟩
    rcases hbounds with ⟨hnil, -⟩ | ⟨-, -, hleast⟩
    · rw [hnil] at hmem
      cases hmem
    · exact ⟨List.ne_nil_of_mem hmem, hleast _ hmem⟩
  · rintro ⟨hne, hle⟩
    rcases hbounds with ⟨hnil, -⟩ | ⟨hlow, hhigh, -⟩
    · exact absurd hnil hne
    · exact InRange.mono_block hlow hle ((hto.trans hup).trans hhigh.2)

/-- A hit has every change after a block that the request names. -/
theorem Cache.FilledBy.allChanges_of_some
    (h : cache.FilledBy cfg db scripts order first searched) {start lowest highest : ℕ}
    (hlowest : cache.lowestBlockNumber = some lowest)
    (hhighest : cache.highestBlockNumber = some highest) (hstart : lowest ≤ start)
    (hup : upTo ≤ highest) :
    AllChanges cfg db scripts (some start) upTo
      (filterChangesInRange cache.changes (some start) upTo) := by
  rw [h.changes, filterChangesInRange_filterMap, allChanges_filter_iff]
  intro row hrow _
  obtain ⟨hafter, hto⟩ := (mem_changeRows.mp hrow).1
  have hlt : start < row.blockNo := of_decide_eq_true hafter
  rcases h.bounds hlowest hhighest with ⟨-, hzero⟩ | ⟨hlow, hhigh, -⟩
  · omega
  · exact InRange.mono_block hlow (hstart.trans hlt.le) ((hto.trans hup).trans hhigh.2)

end Hit

/-! ## Calls -/

/-- The call returns all changes of its range. -/
def Served.Complete (cfg : TxInConfiguration) (served : Served db) : Prop :=
  ∀ since upTo, resolveRange served.call.blocks served.call.sinceMcBlock
      served.call.upToMcBlock = .ok (since, upTo) →
    ∃ changes, served.result = .ok changes ∧
      AllChanges cfg db served.call.scripts since upTo changes

/-- The cache, once it is set to the scripts of the call, does not begin too late. When it
cannot serve the call, the searched data are readable and no change of the range comes after
the latest stable block. -/
def Served.Covered (cacheSize : UInt16) (cfg : TxInConfiguration) (served : Served db) : Prop :=
  ∀ since upTo, resolveRange served.call.blocks served.call.sinceMcBlock
      served.call.upToMcBlock = .ok (since, upTo) →
    let cache := served.cache.setMainChainScripts served.call.scripts
    match cache.getChangesInRange since upTo with
    | some _ => since = none →
        ∀ row ∈ changeRows cfg db served.call.scripts none upTo, row.write.isSome = true →
          cache.changes ≠ [] ∧ ∀ lowest ∈ cache.lowestBlockNumber, lowest ≤ row.blockNo
    | none => ∃ stable, latestStableBlockNumber served.call.blocks upTo = .ok stable ∧
        (∀ row ∈ changeRows cfg db served.call.scripts since
            (maxSearchBlock cacheSize stable since upTo), row.datum.Readable) ∧
        ∀ row ∈ changeRows cfg db served.call.scripts since upTo, row.write.isSome = true →
          row.blockNo ≤ stable

theorem Cache.getChangesInRange_eq_some {cache : Cache} {since : Option ℕ} {upTo : ℕ}
    {changes : List (String × Option ByteString)}
    (h : cache.getChangesInRange since upTo = some changes) :
    ∃ lowest highest, cache.lowestBlockNumber = some lowest ∧
      cache.highestBlockNumber = some highest ∧ upTo ≤ highest ∧
      (∀ start ∈ since, lowest ≤ start) ∧
      changes = filterChangesInRange cache.changes since upTo := by
  unfold getChangesInRange at h
  split at h
  · rename_i highest lowest hhighest hlowest
    split_ifs at h with hmiss
    · obtain ⟨hup, hstart⟩ := not_or.mp hmiss
      refine ⟨lowest, highest, hlowest, hhighest, not_lt.mp hup, ?_, (Option.some.inj h).symm⟩
      rintro start rfl
      simpa using hstart
  · cases h

/-- A hit is answered by changes of the scripts of the request. -/
theorem Cache.Sound.filledBy {cache : Cache} (h : cache.Sound cfg db) {highest : ℕ}
    (hhighest : (cache.setMainChainScripts scripts).highestBlockNumber = some highest) :
    ∃ order first searched,
      (cache.setMainChainScripts scripts).FilledBy cfg db scripts order first searched := by
  obtain ⟨haddress, hpolicy⟩ := cache.setMainChainScripts_address scripts
  rcases h.setMainChainScripts scripts with hnone | ⟨scripts', order, first, searched, hfilled⟩
  · rw [hnone] at hhighest
    cases hhighest
  · have heq : scripts' = scripts := by
      obtain ⟨address, policyId⟩ := scripts
      obtain ⟨address', policyId'⟩ := scripts'
      rw [MainChainScriptsV1.mk.injEq]
      exact ⟨Option.some.inj (hfilled.address.symm.trans haddress),
        Option.some.inj (hfilled.policyId.symm.trans hpolicy)⟩
    exact ⟨order, first, searched, heq ▸ hfilled⟩

/-- In every sequence of calls, a call returns all changes of its range exactly when the
cache that it finds, or the search that it makes, covers them. -/
theorem served_complete_iff_covered (cacheSize : UInt16) (cfg : TxInConfiguration)
    (calls : List (CachedCall db)) (served : Served db)
    (hmem : served ∈ serve cacheSize cfg {} calls) :
    served.Complete cfg ↔ served.Covered cacheSize cfg := by
  obtain ⟨hsound, hresult⟩ := Cache.Sound.serve (.inl rfl) hmem
  refine forall₃_congr fun since upTo hrange => ?_
  rw [hresult]
  dsimp only
  cases hcached : (served.cache.setMainChainScripts served.call.scripts).getChangesInRange
      since upTo with
  | some changes =>
      obtain ⟨lowest, highest, hlowest, hhighest, hup, hstart, rfl⟩ :=
        Cache.getChangesInRange_eq_some hcached
      obtain ⟨order, first, searched, hfilled⟩ := hsound.filledBy hhighest
      rw [CachedCall.execute, getMappingChangesCached_hit hrange hcached]
      simp only [Except.ok.injEq, exists_eq_left']
      cases since with
      | none => simp [hfilled.allChanges_none_iff hlowest hhighest hup, hlowest]
      | some start =>
          refine iff_of_true ?_ (by simp)
          exact hfilled.allChanges_of_some hlowest hhighest (hstart start rfl) hup
  | none =>
      cases hstable : latestStableBlockNumber served.call.blocks upTo with
      | error error =>
          refine iff_of_false ?_ (by simp)
          rintro ⟨changes, hchanges, -⟩
          simp [CachedCall.execute, getMappingChangesCached, hrange, hcached, fetchChanges,
            hstable] at hchanges
      | ok stable =>
          simp only [CachedCall.execute, getMappingChangesCached_miss hrange hcached hstable,
            Except.ok.injEq, exists_eq_left', and_assoc, exists_and_left, exists_eq_left]
          refine and_congr_right fun _ => ?_
          rw [changeWrites, allChanges_filter_iff]
          refine forall₃_congr fun row hrow _ => ?_
          obtain ⟨hafter, hto⟩ := (mem_changeRows.mp hrow).1
          have hle : row.blockNo ≤ max upTo
              (min (since.getD 0 + cacheSize.toNat) maxBlockNumber) := hto.trans (le_max_left _ _)
          simp only [InRange, hafter, true_and, maxSearchBlock, le_min_iff, hle, and_true]

/-! ### A cache that begins too late -/

/-- Entries are made in block 3 and in block 6. -/
def twoEntriesDatabase : Database where
  block := [⟨1, .filled 32 3, some 3, some 1, some 30, 300⟩,
    ⟨2, .filled 32 4, some 4, some 1, some 40, 400⟩,
    ⟨3, .filled 32 6, some 6, some 1, some 60, 600⟩]
  tx := [⟨1, .filled 32 11, 1, 0⟩, ⟨2, .filled 32 12, 3, 0⟩]
  txOut := [⟨1, 1, 0, "addr", some (.filled 32 7), none⟩,
    ⟨2, 2, 0, "addr", some (.filled 32 8), none⟩]
  txIn := []
  maTxOut := [⟨1, 1, 1⟩, ⟨1, 2, 1⟩]
  multiAsset := [⟨1, .filled 28 3, []⟩]
  datum := [⟨.filled 32 7, .data (.list [.bytes [97], .bytes [7]])⟩,
    ⟨.filled 32 8, .data (.list [.bytes [98], .bytes [8]])⟩]

/-- A request up to block 6, which is the latest and stable. -/
def twoEntriesCall (sinceMcBlock : Option McBlockHash) : CachedCall twoEntriesDatabase where
  order := Arrangement.stable _
  blocks := stableBlocks twoEntriesDatabase ⟨6, .filled 32 6, 1, 60, 600⟩
  sinceMcBlock
  upToMcBlock := .filled 32 6
  scripts := ⟨"addr", .filled 28 3⟩

/-- After a request from the start, one since block 4 is answered in full from the cache. -/
theorem served_complete_iff_covered_since_block :
    ∃ served ∈ serve 100 .consumed {} [twoEntriesCall none, twoEntriesCall (some (.filled 32 4))],
      served.result = .ok [("b", some [8])] ∧ served.Complete .consumed := by
  have hmem : (⟨twoEntriesCall (some (.filled 32 4)),
      ((twoEntriesCall none).execute 100 .consumed {}).2, .ok [("b", some [8])]⟩ :
        Served twoEntriesDatabase) ∈
      serve 100 .consumed {} [twoEntriesCall none, twoEntriesCall (some (.filled 32 4))] :=
    .tail _ (.head _)
  have hhit : (((twoEntriesCall none).execute 100 .consumed {}).2.setMainChainScripts
      ⟨"addr", .filled 28 3⟩).getChangesInRange (some 4) 6 = some [("b", some [8])] := rfl
  refine ⟨_, hmem, rfl, (served_complete_iff_covered 100 .consumed _ _ hmem).mpr ?_⟩
  intro since upTo hrange
  have hresolved : resolveRange (twoEntriesCall (some (.filled 32 4))).blocks
      (some (.filled 32 4)) (.filled 32 6) = .ok (some 4, 6) := rfl
  obtain ⟨rfl, rfl⟩ := Prod.mk.inj (Except.ok.inj (hresolved.symm.trans hrange))
  dsimp only
  rw [show (twoEntriesCall (some (.filled 32 4))).scripts = ⟨"addr", .filled 28 3⟩ from rfl, hhit]
  intro hnone
  cases hnone

/-- After a request since block 4, one from the start is answered from the cache and lacks
the entry of block 3. -/
theorem served_lacks_first_entry :
    ((twoEntriesCall none).execute 100 .consumed {}).1 =
        .ok [("a", some [7]), ("b", some [8])] ∧
      ∃ served ∈ serve 100 .consumed {} [twoEntriesCall (some (.filled 32 4)),
          twoEntriesCall none],
        served.call = twoEntriesCall none ∧ served.result = .ok [("b", some [8])] ∧
          ¬ served.Complete .consumed := by
  refine ⟨rfl, ⟨_, _, _⟩, .tail _ (.head _), rfl, rfl, fun h => ?_⟩
  obtain ⟨changes, hchanges, hall⟩ := h none 6 rfl
  cases hchanges
  exact absurd hall.length_eq (by decide)

end PartnerChains.GovernedMap
