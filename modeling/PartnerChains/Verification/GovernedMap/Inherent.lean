import PartnerChains.Model.GovernedMapChain

/-!
# The inherent of the governed map

The inherent data are the difference of two states. Bounded by the pallet and written to the
stored map, they turn the first state into the second.
-/

namespace PartnerChains.GovernedMap

open DbSync LastWrite

/-! ## Differences of two states -/

variable {key : String}

theorem mem_updatedEntries {before after : Mappings} {value : Option ByteString} :
    (key, value) ∈ updatedEntries before after ↔
      before[key]? ≠ value ∧ after[key]? = value ∧ value ≠ none := by
  constructor
  · intro h
    obtain ⟨⟨key', value'⟩, hmem, heq⟩ := List.mem_map.mp h
    obtain ⟨rfl, rfl⟩ := Prod.mk.inj heq
    obtain ⟨hmem, hne⟩ := List.mem_filter.mp hmem
    exact ⟨by simpa using hne, Std.ExtTreeMap.mem_toList_iff_getElem?_eq_some.mp hmem, by simp⟩
  · rintro ⟨hbefore, hafter, hsome⟩
    obtain ⟨value, rfl⟩ := Option.ne_none_iff_exists'.mp hsome
    refine List.mem_map.mpr ⟨(key, value), List.mem_filter.mpr ⟨?_, ?_⟩, rfl⟩
    · exact Std.ExtTreeMap.mem_toList_iff_getElem?_eq_some.mpr hafter
    · simpa using hbefore

theorem mem_removedEntries {before after : Mappings} {value : Option ByteString} :
    (key, value) ∈ removedEntries before after ↔
      before[key]? ≠ value ∧ after[key]? = value ∧ value = none := by
  constructor
  · intro h
    obtain ⟨key', hmem, heq⟩ := List.mem_map.mp h
    obtain ⟨rfl, rfl⟩ := Prod.mk.inj heq
    obtain ⟨hmem, hnot⟩ := List.mem_filter.mp hmem
    refine ⟨?_, by simpa using hnot, rfl⟩
    simpa using Std.ExtTreeMap.mem_keys.mp hmem
  · rintro ⟨hbefore, hafter, rfl⟩
    refine List.mem_map.mpr ⟨key, List.mem_filter.mpr ⟨?_, ?_⟩, rfl⟩
    · exact Std.ExtTreeMap.mem_keys.mpr (by simpa using hbefore)
    · simpa using hafter

theorem nodup_updatedEntries (before after : Mappings) :
    ((updatedEntries before after).map Prod.fst).Nodup := by
  rw [updatedEntries, List.map_map]
  exact (keys_nodup after).sublist ((List.filter_sublist).map Prod.fst)

theorem nodup_removedEntries (before after : Mappings) :
    ((removedEntries before after).map Prod.fst).Nodup := by
  rw [removedEntries, List.map_map]
  have hkeys : before.keys.Nodup := by
    rw [← Std.ExtTreeMap.map_fst_toList_eq_keys]
    exact keys_nodup before
  simpa [Function.comp_def] using hkeys.filter _

theorem disjoint_entries (before after : Mappings) :
    ((updatedEntries before after).map Prod.fst).Disjoint
      ((removedEntries before after).map Prod.fst) := by
  intro key hupdated hremoved
  obtain ⟨updated, hmem, hkey⟩ := List.mem_map.mp hupdated
  obtain ⟨removed, hmem', hkey'⟩ := List.mem_map.mp hremoved
  obtain ⟨-, hafter, hsome⟩ := mem_updatedEntries.mp hmem
  obtain ⟨-, hafter', hnone⟩ := mem_removedEntries.mp hmem'
  rw [hkey] at hafter
  rw [hkey', hnone] at hafter'
  exact hsome (hafter.symm.trans hafter')

theorem isDiff_updated_removed (before after : Mappings) :
    IsDiff before after (updatedEntries before after ++ removedEntries before after) where
  keys_nodup := by
    rw [List.map_append]
    exact (nodup_updatedEntries before after).append (nodup_removedEntries before after)
      (disjoint_entries before after)
  mem_iff key value := by
    rw [List.mem_append, mem_updatedEntries, mem_removedEntries]
    tauto

/-! ## The stored map -/

section Stored

variable {cfg : Config}

/-- A change without its bounds. -/
def unbounded (change : cfg.MapKey × Option cfg.MapValue) : String × Option ByteString :=
  (change.1.toString, change.2.map (·.toList))

theorem getElem?_getCurrentState_eq_some {mapping : Std.ExtTreeMap cfg.MapKey cfg.MapValue}
    {value : ByteString} :
    (getCurrentState mapping)[key]? = some value ↔
      ∃ entry ∈ mapping.toList, entry.1.toString = key ∧ entry.2.toList = value := by
  have heq : getCurrentState mapping =
      replay (mapping.toList.map fun entry => unbounded (entry.1, some entry.2)) ∅ := by
    rw [getCurrentState, replay, List.foldl_map]
    rfl
  have hkeys : ((mapping.toList.map fun entry =>
      unbounded (entry.1, some entry.2)).map Prod.fst).Nodup := by
    have hinjective := (keys_nodup mapping).map BoundedString.toString_injective
    rw [List.map_map] at hinjective ⊢
    exact hinjective
  rw [heq, getElem?_replay, Std.ExtTreeMap.getElem?_empty, Option.getD_eq_iff]
  simp only [reduceCtorEq, and_false, or_false]
  rw [lastWrite_eq_some_iff hkeys, List.mem_map]
  simp only [unbounded, Prod.mk.injEq, Option.map_some, Option.some.injEq]

theorem getElem?_getCurrentState (mapping : Std.ExtTreeMap cfg.MapKey cfg.MapValue)
    (key : cfg.MapKey) :
    (getCurrentState mapping)[key.toString]? = mapping[key]?.map BoundedVec.toList := by
  ext value
  rw [getElem?_getCurrentState_eq_some, Option.map_eq_some_iff]
  constructor
  · rintro ⟨⟨key', value'⟩, hmem, hkey, hvalue⟩
    obtain rfl := BoundedString.toString_injective hkey
    exact ⟨value', Std.ExtTreeMap.mem_toList_iff_getElem?_eq_some.mp hmem, hvalue⟩
  · rintro ⟨value', hget, hvalue⟩
    exact ⟨(key, value'), Std.ExtTreeMap.mem_toList_iff_getElem?_eq_some.mpr hget, rfl, hvalue⟩

theorem getElem?_getCurrentState_of_lt (mapping : Std.ExtTreeMap cfg.MapKey cfg.MapValue)
    (h : cfg.maxKeyLength.toNat < key.utf8ByteSize) :
    (getCurrentState mapping)[key]? = none := by
  refine Option.eq_none_iff_forall_ne_some.mpr fun value hget => ?_
  obtain ⟨entry, -, hkey, -⟩ := getElem?_getCurrentState_eq_some.mp hget
  exact absurd (hkey ▸ entry.1.size_le) (Nat.not_le.mpr h)

theorem getCurrentState_write (mapping : Std.ExtTreeMap cfg.MapKey cfg.MapValue)
    (change : cfg.MapKey × Option cfg.MapValue) :
    getCurrentState (write mapping change) =
      write (getCurrentState mapping) (unbounded change) := by
  refine Std.ExtTreeMap.ext_getElem? fun key => ?_
  rw [getElem?_write]
  by_cases hsize : key.utf8ByteSize ≤ cfg.maxKeyLength.toNat
  · obtain ⟨bkey, rfl⟩ : ∃ bkey : cfg.MapKey, bkey.toString = key := ⟨⟨key, hsize⟩, rfl⟩
    rw [getElem?_getCurrentState, getElem?_write, getElem?_getCurrentState]
    by_cases hkey : change.1 = bkey
    · simp [unbounded, hkey]
    · have hne : (unbounded change).1 ≠ bkey.toString :=
        fun h => hkey (BoundedString.toString_injective h)
      rw [if_neg hkey, if_neg hne]
  · have hne : (unbounded change).1 ≠ key := fun h => hsize (h ▸ change.1.size_le)
    rw [if_neg hne, getElem?_getCurrentState_of_lt _ (Nat.lt_of_not_le hsize),
      getElem?_getCurrentState_of_lt _ (Nat.lt_of_not_le hsize)]

theorem getCurrentState_replay (mapping : Std.ExtTreeMap cfg.MapKey cfg.MapValue)
    (changes : List (cfg.MapKey × Option cfg.MapValue)) :
    getCurrentState (replay changes mapping) =
      replay (changes.map unbounded) (getCurrentState mapping) := by
  induction changes using List.reverseRecOn with
  | nil => rfl
  | append_singleton changes change ih =>
      rw [replay_append_singleton, getCurrentState_write, ih, List.map_append,
        List.map_singleton, replay_append_singleton]

end Stored

/-! ## The inherent -/

section Inherent

variable {cfg : Config}

theorem unbounded_of_boundChange {raw : String × Option ByteString}
    {change : cfg.MapKey × Option cfg.MapValue} (h : boundChange cfg raw = .ok change) :
    unbounded change = raw := by
  obtain ⟨key, value⟩ := raw
  have hkey {bkey : cfg.MapKey} (h : boundKey cfg key = .ok bkey) : bkey.toString = key := by
    unfold boundKey BoundedString.tryFrom at h
    split at h
    · cases h
      rfl
    · cases h
  cases value with
  | none =>
      simp only [boundChange, Fallible.ok_bind, Fallible.bind_eq_ok_iff] at h
      obtain ⟨bkey, hbkey, heq⟩ := h
      cases heq
      simp [unbounded, hkey hbkey]
  | some value =>
      have hvalue {bvalue : cfg.MapValue} (h : boundValue cfg key value = .ok bvalue) :
          bvalue.toList = value := by
        unfold boundValue BoundedVec.tryFrom at h
        split at h
        · cases h
          rfl
        · cases h
      simp only [boundChange, Fallible.bind_eq_ok_iff] at h
      obtain ⟨newValue, hnewValue, bkey, hbkey, heq⟩ := h
      cases heq
      cases hbound : boundValue cfg key value with
      | error error =>
          rw [hbound] at hnewValue
          cases hnewValue
      | ok bvalue =>
          rw [hbound] at hnewValue
          cases hnewValue
          simp [unbounded, hkey hbkey, hvalue hbound]

theorem exists_boundChange {raw : String × Option ByteString}
    (hkey : raw.1.utf8ByteSize ≤ cfg.maxKeyLength.toNat)
    (hvalue : ∀ value, raw.2 = some value → value.length ≤ cfg.maxValueLength.toNat) :
    ∃ change, boundChange cfg raw = .ok change := by
  obtain ⟨key, value⟩ := raw
  cases value with
  | none => exact ⟨_, by simp [boundChange, boundKey, BoundedString.tryFrom, hkey]; rfl⟩
  | some value =>
      have hlength := hvalue value rfl
      exact ⟨(⟨key, hkey⟩, some ⟨value, hlength⟩), by
        simp [boundChange, boundKey, BoundedString.tryFrom, hkey, boundValue,
          BoundedVec.tryFrom_of_le hlength, Except.map]⟩

theorem map_of_insertChanges {changes : List (cfg.MapKey × Option cfg.MapValue)}
    {start collected : cfg.Changes}
    (h : changes.foldlM insertChange start = .ok collected) :
    collected.map = changes.foldl (fun m change => m.insert change.1 change.2) start.map := by
  induction changes generalizing start with
  | nil =>
      cases h
      rfl
  | cons change changes ih =>
      rw [List.foldlM_cons, Fallible.bind_eq_ok_iff] at h
      obtain ⟨next, hnext, hrest⟩ := h
      unfold insertChange BoundedBTreeMap.tryInsert at hnext
      split at hnext
      · cases hnext
        exact ih hrest
      · cases hnext

theorem exists_insertChanges {changes : List (cfg.MapKey × Option cfg.MapValue)}
    {start : cfg.Changes} (h : start.map.size + changes.length ≤ cfg.maxChanges.toNat) :
    ∃ collected, changes.foldlM insertChange start = .ok collected := by
  induction changes generalizing start with
  | nil => exact ⟨start, rfl⟩
  | cons change changes ih =>
      rw [List.length_cons] at h
      have hsize : (start.map.insert change.1 change.2).size ≤ start.map.size + 1 :=
        Std.ExtTreeMap.size_insert_le
      have hinsert : insertChange start change =
          .ok ⟨start.map.insert change.1 change.2, by omega⟩ := by
        rw [insertChange, BoundedBTreeMap.tryInsert, dif_pos (by omega)]
        rfl
      rw [List.foldlM_cons, hinsert]
      exact ih (by simp only; omega)

/-- An inherent writes the raw changes to the stored map. There is none only when there is
nothing to change. -/
theorem createInherent_cases {storage : Storage cfg}
    {rawChanges : List (String × Option ByteString)} {call : Option (Call cfg)}
    (h : createInherent storage (.ok (some (collect rawChanges))) = .ok call) :
    (call = none ∧ storage.initialized = true ∧ rawChanges = []) ∨
      ∃ changes : cfg.Changes, call = some (.registerChanges changes) ∧ ∀ mapping,
        getCurrentState (replay changes.map.toList mapping) =
          replay rawChanges (getCurrentState mapping) := by
  simp only [createInherent, createInherentOrErr, decodeInherentData, Fallible.ok_bind] at h
  split at h
  · rename_i hempty
    cases h
    exact .inl ⟨rfl, hempty.2, collect_eq_empty_iff.mp (Std.ExtTreeMap.isEmpty_iff.mp hempty.1)⟩
  · split at h
    · cases h
    · cases hbound : (collect rawChanges).toList.mapM (boundChange cfg) with
      | error error =>
          rw [hbound] at h
          cases h
      | ok changes =>
          rw [hbound] at h
          simp only [bind_assoc, Fallible.ok_bind, Fallible.bind_eq_ok_iff] at h
          obtain ⟨collected, hcollected, heq⟩ := h
          cases heq
          refine .inr ⟨collected, rfl, fun mapping => ?_⟩
          have hstep : ∀ raw change, boundChange cfg raw = .ok change →
              unbounded change = id raw := fun _ _ => unbounded_of_boundChange
          have hraw : changes.map unbounded = (collect rawChanges).toList := by
            rw [Fallible.map_eq_of_mapM hbound hstep, List.map_id]
          have hmap : collected.map = collect changes := map_of_insertChanges hcollected
          rw [hmap, replay_collect, getCurrentState_replay, hraw, replay_collect]

theorem exists_createInherent (storage : Storage cfg)
    {rawChanges : List (String × Option ByteString)}
    (hlength : rawChanges.length ≤ cfg.maxChanges.toNat)
    (hentries : ∀ change ∈ rawChanges, change.1.utf8ByteSize ≤ cfg.maxKeyLength.toNat ∧
      ∀ value, change.2 = some value → value.length ≤ cfg.maxValueLength.toNat) :
    ∃ call, createInherent storage (.ok (some (collect rawChanges))) = .ok call := by
  have hsize := (size_collect_le rawChanges).trans hlength
  have hmem : ∀ change ∈ (collect rawChanges).toList, change ∈ rawChanges := by
    intro change hchange
    rw [Std.ExtTreeMap.mem_toList_iff_getElem?_eq_some, getElem?_collect] at hchange
    exact mem_of_lastWrite_eq_some hchange
  obtain ⟨changes, hchanges⟩ : ∃ changes,
      (collect rawChanges).toList.mapM (boundChange cfg) = .ok changes := by
    refine Fallible.exists_mapM_iff.mpr fun change hchange => ?_
    obtain ⟨hkey, hvalue⟩ := hentries change (hmem change hchange)
    exact exists_boundChange hkey hvalue
  have hcount : (BoundedBTreeMap.new : cfg.Changes).map.size + changes.length ≤
      cfg.maxChanges.toNat := by
    rw [← (Fallible.mapM_eq_ok_iff.mp hchanges).length_eq, Std.ExtTreeMap.length_toList]
    simpa [BoundedBTreeMap.new] using hsize
  obtain ⟨collected, hcollected⟩ := exists_insertChanges hcount
  by_cases hempty : (collect rawChanges).isEmpty ∧ storage.initialized
  · refine ⟨none, ?_⟩
    simp only [createInherent, createInherentOrErr, decodeInherentData, Fallible.ok_bind,
      if_pos hempty]
  · refine ⟨some (.registerChanges collected), ?_⟩
    simp only [createInherent, createInherentOrErr, decodeInherentData, Fallible.ok_bind,
      if_neg hempty, if_neg (Nat.not_lt.mpr hsize), hchanges, hcollected]

/-! ## Dispatch -/

theorem storage_foldl_applyChange (changes : List (cfg.MapKey × Option cfg.MapValue))
    (r : Runtime cfg) :
    (changes.foldl applyChange r).storage =
      { r.storage with mapping := replay changes r.storage.mapping } := by
  induction changes generalizing r with
  | nil => rfl
  | cons change changes ih =>
      rw [List.foldl_cons, ih]
      rfl

/-- The inherent call succeeds once per block and writes its changes. -/
theorem dispatch_registerChanges {r : Runtime cfg} {currentBlock : ℕ} (changes : cfg.Changes)
    (hlast : ∀ last ∈ r.storage.lastUpdateBlock, last < currentBlock)
    (hscripts : r.storage.mainChainScripts.isSome) :
    ∃ r', dispatch .none currentBlock (.registerChanges changes) r = .ok r' ∧
      r'.storage = { r.storage with
        lastUpdateBlock := some currentBlock
        initialized := true
        mapping := replay changes.map.toList r.storage.mapping } := by
  have hnone : r.storage.mainChainScripts.isNone = false := by
    simpa using hscripts
  have hall : r.storage.lastUpdateBlock.all (· < currentBlock) = true := by
    simpa [Option.all_eq_true] using hlast
  refine ⟨changes.map.toList.foldl applyChange { r with storage := { r.storage with
    lastUpdateBlock := some currentBlock, initialized := true } }, ?_, ?_⟩
  · simp [dispatch, registerChanges, hall, hnone]
  · rw [storage_foldl_applyChange]

/-- Other calls never touch the stored map; they keep the storage or replace the scripts. -/
theorem executeExtrinsic_cases (currentBlock : ℕ) (r : Runtime cfg)
    (extrinsic : Extrinsic cfg) :
    executeExtrinsic currentBlock r extrinsic = r ∨ ∃ scripts,
      (executeExtrinsic currentBlock r extrinsic).storage =
        { r.storage with mainChainScripts := some scripts, initialized := false } := by
  obtain ⟨origin, call, hsigned⟩ := extrinsic
  cases call with
  | registerChanges changes =>
      left
      simp [executeExtrinsic, dispatch, registerChanges, hsigned]
  | setMainChainScripts scripts =>
      by_cases horigin : cfg.mainChainScriptsOrigin origin = true
      · right
        exact ⟨scripts, by simp [executeExtrinsic, dispatch, setMainChainScripts, horigin]⟩
      · left
        simp [executeExtrinsic, dispatch, setMainChainScripts, horigin]

theorem foldl_executeExtrinsic (currentBlock : ℕ) (extrinsics : List (Extrinsic cfg))
    (r : Runtime cfg) :
    let r' := extrinsics.foldl (executeExtrinsic currentBlock) r
    r'.storage.mapping = r.storage.mapping ∧
      r'.storage.lastUpdateBlock = r.storage.lastUpdateBlock ∧
      (r'.storage.initialized = true → r'.storage = r.storage) := by
  induction extrinsics generalizing r with
  | nil => exact ⟨rfl, rfl, fun _ => rfl⟩
  | cons extrinsic extrinsics ih =>
      obtain ⟨hmapping, hlast, hinitialized⟩ := ih (executeExtrinsic currentBlock r extrinsic)
      rcases executeExtrinsic_cases currentBlock r extrinsic with hsame | ⟨scripts, hscripts⟩
      · rw [hsame] at hmapping hlast hinitialized
        simp only [List.foldl_cons, hsame]
        exact ⟨hmapping, hlast, hinitialized⟩
      · rw [hscripts] at hmapping hlast hinitialized
        refine ⟨hmapping, hlast, fun htrue => ?_⟩
        -- nothing after the scripts are replaced initializes the pallet
        have hfalse := congrArg Storage.initialized (hinitialized htrue)
        rw [List.foldl_cons] at htrue
        rw [htrue] at hfalse
        cases hfalse

end Inherent

end PartnerChains.GovernedMap
