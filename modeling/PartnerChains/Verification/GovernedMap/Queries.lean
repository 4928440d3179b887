import PartnerChains.Verification.GovernedMap.History

/-!
# What the queries of the governed map return

Both queries succeed exactly when every datum they select can be read. They then return
the entries of the arranged rows; rows without an entry are skipped.
-/

namespace PartnerChains.DbSync

open GovernedMap

def DatumChangeRow.write (row : DatumChangeRow) : Option (String × Option ByteString) :=
  row.datum.entry.map fun entry =>
    (entry.key, match row.action with | .spend => none | .create => some entry.value)

def DatumChangeRow.change (row : DatumChangeRow) : Option Change :=
  row.write.map fun write => ⟨row.blockNo, write.1, write.2⟩

def DatumAtRow.write (row : DatumAtRow) : Option (String × Option ByteString) :=
  row.datum.entry.map fun entry => (entry.key, some entry.value)

theorem DatumChangeRow.decode_ofOutput_iff {row : DatumChangeRow} {change : Option Change} :
    (∃ output, row.decode = .ok output ∧ Change.ofOutput output = .ok change) ↔
      row.datum.Readable ∧ change = row.change := by
  obtain ⟨value, blockNo, blockIndex, action⟩ := row
  cases value with
  | null => simp [decode, DatumValue.decode, DatumValue.Readable]
  | malformed => simp [decode, DatumValue.decode, DatumValue.Readable]
  | data datum =>
      cases hread : GovernedMapDatum.tryFrom datum with
      | error panic =>
          simp [decode, DatumValue.decode, DatumValue.Readable, Change.ofOutput, hread,
            Except.isOk, Except.toBool]
      | ok result =>
          cases result with
          | error error =>
              simp [decode, DatumValue.decode, DatumValue.Readable, Change.ofOutput, hread,
                Except.isOk, Except.toBool, DatumChangeRow.change, write, DatumValue.entry, eq_comm]
          | ok entry =>
              cases action <;>
                simp [decode, DatumValue.decode, DatumValue.Readable, Change.ofOutput, hread,
                  Except.isOk, Except.toBool, DatumChangeRow.change, write, DatumValue.entry,
                  eq_comm]

end PartnerChains.DbSync

namespace PartnerChains.GovernedMap

open DbSync Relational LastWrite Fallible

variable {cfg : TxInConfiguration} {db : Database} {scripts : MainChainScriptsV1}

/-! ## Changes -/

def changeRows (cfg : TxInConfiguration) (db : Database) (scripts : MainChainScriptsV1)
    (since : Option ℕ) (upTo : ℕ) : List DatumChangeRow :=
  governedMapChangeRows cfg db scripts.validatorAddress since upTo
    (Asset.new scripts.assetPolicyId)

theorem mem_changeRows {since : Option ℕ} {upTo : ℕ} {row : DatumChangeRow} :
    row ∈ changeRows cfg db scripts since upTo ↔ InRange since upTo row.blockNo ∧
      Touches cfg db scripts.validatorAddress (Asset.new scripts.assetPolicyId) row :=
  mem_governedMapChangeRows

theorem changeRows_nodup (since : Option ℕ) (upTo : ℕ) :
    (changeRows cfg db scripts since upTo).Nodup :=
  List.nodup_dedup _

theorem getChangesInRangeToCache_eq_ok_iff {order : Arrangement DatumChangeRow.orderKey}
    {since : Option ℕ} {upTo : ℕ} {changes : List Change} :
    getChangesInRangeToCache order db cfg since upTo scripts = .ok changes ↔
      (∀ row ∈ changeRows cfg db scripts since upTo, row.datum.Readable) ∧
        changes = (order.arrange (changeRows cfg db scripts since upTo)).filterMap
          DatumChangeRow.change := by
  set rows := changeRows cfg db scripts since upTo with hrows
  have hpasses {results : List (Option Change)} :
      (∃ outputs, (order.arrange rows).mapM DatumChangeRow.decode = .ok outputs ∧
        outputs.mapM Change.ofOutput = .ok results) ↔
        (∀ row ∈ rows, row.datum.Readable) ∧
          results = (order.arrange rows).map DatumChangeRow.change := by
    simp only [exists_mapM_mapM_eq_ok_iff, DatumChangeRow.decode_ofOutput_iff,
      List.forall₂_and_left, (order.perm rows).mem_iff]
    refine and_congr_right fun _ => ?_
    have hflip : List.Forall₂ (fun row result => result = DatumChangeRow.change row)
        (order.arrange rows) results ↔
          List.Forall₂ (· = ·) results ((order.arrange rows).map DatumChangeRow.change) := by
      rw [List.forall₂_map_right_iff]
      exact ⟨List.Forall₂.flip, List.Forall₂.flip⟩
    rw [hflip, List.forall₂_eq_eq_eq]
  rw [getChangesInRangeToCache, getGovernedMapChanges_eq]
  change (Except.mapError _ ((order.arrange rows).mapM DatumChangeRow.decode) >>= _) = _ ↔ _
  simp only [bind_eq_ok_iff, mapError_eq_ok_iff, Except.ok.injEq]
  constructor
  · rintro ⟨outputs, houtputs, results, hresults, rfl⟩
    obtain ⟨hreadable, rfl⟩ := hpasses.mp ⟨outputs, houtputs, hresults⟩
    exact ⟨hreadable, by simp [List.reduceOption]⟩
  · rintro ⟨hreadable, rfl⟩
    obtain ⟨outputs, houtputs, hresults⟩ := hpasses.mpr ⟨hreadable, rfl⟩
    exact ⟨outputs, houtputs, _, hresults, by simp [List.reduceOption]⟩

/-- What the changes after `since` and up to `upTo` write, of those found up to `maxSearch`. -/
def changeWrites (order : Arrangement DatumChangeRow.orderKey) (cfg : TxInConfiguration)
    (db : Database) (scripts : MainChainScriptsV1) (since : Option ℕ) (upTo maxSearch : ℕ) :
    List (String × Option ByteString) :=
  ((order.arrange (changeRows cfg db scripts since maxSearch)).filter fun row =>
    InRange since upTo row.blockNo).filterMap DatumChangeRow.write

theorem filterChangesInRange_filterMap (rows : List DatumChangeRow) (since : Option ℕ)
    (upTo : ℕ) :
    filterChangesInRange (rows.filterMap DatumChangeRow.change) since upTo =
      (rows.filter fun row => InRange since upTo row.blockNo).filterMap DatumChangeRow.write := by
  rw [filterChangesInRange, List.filter_filterMap, List.map_filterMap, List.filterMap_filter]
  refine List.filterMap_congr fun row _ => ?_
  have hrange : (row.blockNo ≤ upTo ∧ since.all (· < row.blockNo) = true) ↔
      InRange since upTo row.blockNo := and_comm
  cases hwrite : row.write with
  | none => simp [DatumChangeRow.change, hwrite]
  | some write => by_cases h : InRange since upTo row.blockNo <;>
      simp [DatumChangeRow.change, hwrite, Option.filter, hrange, h]

/-! ## State -/

def stateRows (cfg : TxInConfiguration) (db : Database) (scripts : MainChainScriptsV1)
    (block : ℕ) : List DatumAtRow :=
  datumRowsAt cfg db scripts.validatorAddress block (Asset.new scripts.assetPolicyId)

theorem insertEntry_eq_ok_iff {mappings mappings' : Mappings} {datum : PlutusData} :
    insertEntry mappings datum = .ok mappings' ↔
      (DatumValue.data datum).Readable ∧
        mappings' = replay ((DatumValue.data datum).entry.map fun entry =>
          (entry.key, some entry.value)).toList mappings := by
  cases hread : GovernedMapDatum.tryFrom datum with
  | error panic =>
      simp [insertEntry, hread, DatumValue.Readable, Except.isOk, Except.toBool]
  | ok result =>
      cases result with
      | error error =>
          simp [insertEntry, hread, DatumValue.Readable, Except.isOk, Except.toBool,
            DatumValue.entry, eq_comm]
      | ok entry =>
          simp [insertEntry, hread, DatumValue.Readable, Except.isOk, Except.toBool,
            DatumValue.entry, replay, write, eq_comm]

theorem mapM_foldlM_insertEntry_iff {rows : List DatumAtRow} {before after : Mappings} :
    (∃ entries, rows.mapM (fun row => row.datum.decode) = .ok entries ∧
      entries.foldlM insertEntry before = .ok after) ↔
      (∀ row ∈ rows, row.datum.Readable) ∧
        after = replay (rows.filterMap DatumAtRow.write) before := by
  induction rows generalizing before with
  | nil => simp [eq_comm]
  | cons row rows ih =>
      obtain ⟨value, blockNo, blockIndex⟩ := row
      cases value with
      | null => simp [DatumValue.decode, DatumValue.Readable]
      | malformed => simp [DatumValue.decode, DatumValue.Readable]
      | data datum =>
          have hreplay : replay ((⟨.data datum, blockNo, blockIndex⟩ :: rows).filterMap
              DatumAtRow.write) before = replay (rows.filterMap DatumAtRow.write)
                (replay ((DatumValue.data datum).entry.map fun entry =>
                  (entry.key, some entry.value)).toList before) := by
            rw [← replay_append]
            cases hentry : (DatumValue.data datum).entry <;> simp [DatumAtRow.write, hentry]
          rw [List.forall_mem_cons, hreplay, and_assoc]
          simp only [List.mapM_cons, DatumValue.decode, ok_bind, bind_eq_ok_iff, pure_eq_ok,
            Except.ok.injEq]
          constructor
          · rintro ⟨_, ⟨entries, hentries, rfl⟩, hfold⟩
            obtain ⟨middle, hmiddle, hafter⟩ := bind_eq_ok_iff.mp hfold
            obtain ⟨hreadable, rfl⟩ := insertEntry_eq_ok_iff.mp hmiddle
            exact ⟨hreadable, ih.mp ⟨entries, hentries, hafter⟩⟩
          · rintro ⟨hreadable, hrest⟩
            obtain ⟨entries, hentries, hafter⟩ := ih.mpr hrest
            refine ⟨_, ⟨entries, hentries, rfl⟩, bind_eq_ok_iff.mpr ⟨_, ?_, hafter⟩⟩
            exact insertEntry_eq_ok_iff.mpr ⟨hreadable, rfl⟩

theorem getMappingsEntries_eq_ok_iff {order : Arrangement DatumAtRow.orderKey}
    {hash : McBlockHash} {block : Block} (hblock : getBlockByHash db hash = .ok (some block))
    {mappings : Mappings} :
    getMappingsEntries order db hash scripts cfg = .ok mappings ↔
      (∀ row ∈ stateRows cfg db scripts block.blockNo, row.datum.Readable) ∧
        mappings = replay ((order.arrange (stateRows cfg db scripts block.blockNo)).filterMap
          DatumAtRow.write) ∅ := by
  have hmem (row : DatumAtRow) : row ∈ stateRows cfg db scripts block.blockNo ↔
      row ∈ order.arrange (stateRows cfg db scripts block.blockNo) :=
    (order.perm _).mem_iff.symm
  simp only [hmem]
  rw [← mapM_foldlM_insertEntry_iff, getMappingsEntries, hblock]
  simp only [mapError_ok, ok_bind, getDatumsAtAddressWithToken_eq, bind_eq_ok_iff,
    mapError_eq_ok_iff, stateRows]

/-! ## Calls -/

/-- A block data source over a database, with a given latest block that is also stable. -/
def stableBlocks (db : Database) (latest : MainchainBlock) : BlockDataSource db where
  getBlockByHash hash :=
    ((DbSync.getBlockByHash db hash).map (Option.map Block.toMainchainBlock)).mapError .sqlx
  getLatestBlockInfo := .ok latest
  getLatestStableBlockFor _ := .ok (some latest)
  getBlockByHash_eq _ := rfl

section Call

variable {blocks : BlockDataSource db} {sinceHash : Option McBlockHash} {upToHash : McBlockHash}
  {since : Option ℕ} {upTo : ℕ} {cacheSize : UInt16} {order : Arrangement DatumChangeRow.orderKey}
  {cache : Cache} {changes : List (String × Option ByteString)}

theorem getMappingChangesCached_hit
    (hrange : resolveRange blocks sinceHash upToHash = .ok (since, upTo))
    (hhit : (cache.setMainChainScripts scripts).getChangesInRange since upTo = some changes) :
    getMappingChangesCached cacheSize order cfg blocks sinceHash upToHash scripts cache =
      (.ok changes, cache.setMainChainScripts scripts) := by
  simp only [getMappingChangesCached, hrange, hhit]

theorem getMappingChangesCached_miss
    (hrange : resolveRange blocks sinceHash upToHash = .ok (since, upTo))
    (hmiss : (cache.setMainChainScripts scripts).getChangesInRange since upTo = none)
    {stable : ℕ} (hstable : latestStableBlockNumber blocks upTo = .ok stable) :
    (getMappingChangesCached cacheSize order cfg blocks sinceHash upToHash scripts cache).1 =
        .ok changes ↔
      (∀ row ∈ changeRows cfg db scripts since (maxSearchBlock cacheSize stable since upTo),
        row.datum.Readable) ∧
        changes = changeWrites order cfg db scripts since upTo
          (maxSearchBlock cacheSize stable since upTo) := by
  have hfetch : fetchChanges cacheSize order cfg blocks since upTo scripts =
      getChangesInRangeToCache order db cfg since
        (maxSearchBlock cacheSize stable since upTo) scripts := by
    rw [fetchChanges, hstable, ok_bind]
  simp only [getMappingChangesCached, hrange, hmiss, hfetch]
  cases hchanges : getChangesInRangeToCache order db cfg since
      (maxSearchBlock cacheSize stable since upTo) scripts with
  | error error =>
      refine iff_of_false (by simp) ?_
      rintro ⟨hreadable, -⟩
      rw [getChangesInRangeToCache_eq_ok_iff.mpr ⟨hreadable, rfl⟩] at hchanges
      cases hchanges
  | ok all =>
      obtain ⟨hreadable, rfl⟩ := getChangesInRangeToCache_eq_ok_iff.mp hchanges
      rw [and_iff_right hreadable, changeWrites, ← filterChangesInRange_filterMap]
      exact ⟨fun h => (Except.ok.inj h).symm, fun h => by rw [h]⟩

end Call

end PartnerChains.GovernedMap
