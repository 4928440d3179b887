import PartnerChains.Library.PartitionPoint
import PartnerChains.Model.BridgeCalls
import PartnerChains.Verification.BlockSource.Contract
import PartnerChains.Verification.Bridge.Query

/-!
# The cache of the bridge

The cache holds all bridge UTXOs of a range of blocks. A fill is cut off at the reported
stable block, and then the call that asked for it may still not be served.
-/

namespace PartnerChains.DbSync

open Fallible

theorem exists_block_of_getBlockInfoForUtxo {db : Database} {txHash : McTxHash}
    {info : TxBlockInfo} (h : getBlockInfoForUtxo db txHash = .ok (some info)) :
    ∃ row ∈ db.block, row.blockNo = some info.blockNumber := by
  simp only [getBlockInfoForUtxo, List.bind_eq_flatMap] at h
  split at h
  · cases h
  · rename_i blockNo txIx _ hrows
    obtain ⟨number, hnumber, h⟩ := bind_eq_ok_iff.mp h
    obtain rfl := Option.some.inj (Except.ok.inj h)
    have hmem := List.mem_cons_self (a := (blockNo, txIx)) (l := ‹_›)
    rw [← hrows] at hmem
    simp only [List.mem_flatMap, List.mem_filter, List.mem_ite_nil_right, List.mem_singleton,
      Prod.mk.injEq] at hmem
    obtain ⟨_, _, row, ⟨hrow, _⟩, _, rfl, _⟩ := hmem
    exact ⟨row, hrow, decodeNotNull_eq_ok_iff.mp hnumber⟩

end PartnerChains.DbSync

namespace PartnerChains.Bridge

open DbSync Relational Fallible

variable {Recipient : Type} {db : Database} {cfg : TxInConfiguration}

/-! ## The uncached source -/

theorem getBridgeUtxosTx_page (hdb : Consistent db)
    (order : UtxoOrder)
    (scripts : MainChainScripts) (checkpoint : ResolvedBridgeDataCheckpoint) (toBlock : ℕ)
    (maxTransfers : UInt32) :
    getBridgeUtxosTx order cfg db scripts.illiquidCirculationSupplyValidatorAddress
        scripts.assetId checkpoint toBlock (some maxTransfers.toNat) =
      (pageRows cfg db scripts checkpoint toBlock maxTransfers).mapM decodeBridgeUtxo := by
  simp only [getBridgeUtxosTx, hdb.arrange_bridgeRows order, pageRows, scriptsLog]

/-- A fill reads all rows of its range, when no bridge UTXO is in block 0. -/
theorem getBridgeUtxosTx_range (hdb : Consistent db) (hzero : FirstBlockEmpty cfg db)
    (order : UtxoOrder)
    (scripts : MainChainScripts) (startBlock endBlock : ℕ) :
    getBridgeUtxosTx order cfg db scripts.illiquidCirculationSupplyValidatorAddress
        scripts.assetId (.block (startBlock - 1)) endBlock none =
      (rangeRows cfg db scripts startBlock endBlock).mapM decodeBridgeUtxo := by
  simp only [getBridgeUtxosTx, hdb.arrange_bridgeRows order, rangeRows, scriptsLog]
  refine congrArg (List.mapM decodeBridgeUtxo) (List.filter_congr fun row hrow => ?_)
  have hpos := hzero scripts row hrow
  rw [Bool.eq_iff_iff, bridgeCondition, ResolvedBridgeDataCheckpoint.isBefore]
  simp only [Bool.and_eq_true, decide_eq_true_eq]
  change row.1.blockNo ≤ endBlock ∧ startBlock - 1 < row.1.blockNo ↔ _
  omega

theorem readable_iff {rows : List (BridgeGroup × ℕ)} :
    Readable rows ↔ ∃ utxos, rows.mapM decodeBridgeUtxo = .ok utxos :=
  exists_mapM_iff.symm

namespace CachedCall

variable {src : CachedSource Recipient} {call : CachedCall db} {toBlock : ℕ}
  {checkpoint : ResolvedBridgeDataCheckpoint}

theorem newCheckpoint_eq (utxos : List BridgeUtxo) :
    call.newCheckpoint toBlock utxos = Bridge.newCheckpoint toBlock utxos call.maxTransfers := by
  unfold newCheckpoint Bridge.newCheckpoint
  cases utxos.getLast? with
  | none => rfl
  | some utxo =>
      dsimp only
      split_ifs with hfull hshort
      · exact absurd hfull (not_le.mpr hshort)
      · rfl
      · rfl
      · omega

theorem toBlock_eq_ok_iff :
    call.toBlock = .ok toBlock ↔
      ∃ block, DbSync.getBlockByHash db call.currentMcBlockHash = .ok (some block) ∧
        block.blockNo = toBlock := by
  unfold CachedCall.toBlock
  rw [call.blocks.getBlockByHash_eq]
  cases hfound : DbSync.getBlockByHash db call.currentMcBlockHash with
  | error error => simp [Except.map, Except.mapError]
  | ok found =>
      cases found with
      | none => simp [Except.map, Except.mapError]
      | some block => simp [Except.map, Except.mapError, Block.toMainchainBlock]

theorem uncached_of_resolved (hdb : Consistent db) (hto : call.toBlock = .ok toBlock)
    (hcheckpoint : resolveCheckpoint db call.dataCheckpoint = .ok checkpoint) :
    (call.uncached src).toOption =
      ((pageRows src.txInConfig db call.mainChainScripts checkpoint toBlock
        call.maxTransfers).mapM decodeBridgeUtxo).toOption.map (call.answer src toBlock) := by
  obtain ⟨block, hblock, rfl⟩ := toBlock_eq_ok_iff.mp hto
  rw [← getBridgeUtxosTx_page hdb call.order, MainChainScripts.assetId]
  unfold uncached Bridge.getTransfers readUtxos
  simp only [hblock, fromSqlx, hcheckpoint, ok_bind]
  cases getBridgeUtxosTx call.order src.txInConfig db
      call.mainChainScripts.illiquidCirculationSupplyValidatorAddress
      ⟨call.mainChainScripts.tokenPolicyId, call.mainChainScripts.tokenAssetName⟩ checkpoint
      block.blockNo (some call.maxTransfers.toNat) with
  | error error => rfl
  | ok utxos => simp [Except.toOption, answer, newCheckpoint_eq]

end CachedCall

/-- The Db-Sync block data source, when its cache holds blocks of the database. -/
def dbSyncBlocks (order : BlockOrder) (cfg : BlockSource.Config)
    (htable : BlockSource.BlockTable db) (cache : BlockSource.BlocksCache)
    (hcache : cache.Sound db) : BlockDataSource db where
  getBlockByHash hash := BlockSource.getBlockByHash db hash cache
  getLatestBlockInfo := BlockSource.getLatestBlockInfo order db
  getLatestStableBlockFor timestamp :=
    BlockSource.getLatestStableBlockFor order cfg db (.ofNat timestamp)
  getBlockByHash_eq hash := by
    unfold BlockSource.getBlockByHash
    cases hfind : cache.findByHash hash with
    | none => rfl
    | some block =>
        obtain ⟨rfl, row, hrow, hdecode⟩ := hcache.findByHash hfind
        rw [htable.getBlockByHash_of_mem hrow hdecode]
        rfl

/-! ## What the cache holds -/

/-- The cache holds all bridge UTXOs of its range for its scripts, and it locates UTXOs where
the database does. -/
structure TokenUtxoCache.Sound (cfg : TxInConfiguration) (db : Database)
    (cache : TokenUtxoCache) : Prop where
  transfers : (rangeRows cfg db cache.mcScripts cache.startBlock cache.endBlock).mapM
    decodeBridgeUtxo = .ok cache.transfers
  located : ∀ utxoId utxo, cache.utxoCache utxoId = some utxo → utxo.utxoId = utxoId ∧
    getBlockInfoForUtxo db utxo.txHash = .ok (some ⟨utxo.blockNumber, utxo.txIx⟩)

theorem rangeRows_zero (hzero : FirstBlockEmpty cfg db) (scripts : MainChainScripts) :
    rangeRows cfg db scripts 0 0 = [] := by
  refine List.filter_eq_nil_iff.mpr fun row hrow => ?_
  have hpos := hzero scripts row hrow
  simp only [decide_eq_true_eq]
  omega

namespace TokenUtxoCache

variable {cache : TokenUtxoCache} {scripts : MainChainScripts}

theorem Sound.empty (hzero : FirstBlockEmpty cfg db) : Sound cfg db {} where
  transfers := by rw [rangeRows_zero hzero]; rfl
  located _ _ h := by cases h

@[simp]
theorem setMcScripts_mcScripts : (cache.setMcScripts scripts).mcScripts = scripts := by
  unfold setMcScripts
  split_ifs with h
  · rfl
  · exact not_not.mp h

theorem Sound.setMcScripts (hzero : FirstBlockEmpty cfg db) (h : cache.Sound cfg db)
    (scripts : MainChainScripts) : (cache.setMcScripts scripts).Sound cfg db := by
  unfold TokenUtxoCache.setMcScripts
  split_ifs
  · exact ⟨by rw [rangeRows_zero hzero]; rfl, h.located⟩
  · exact h

variable {utxos : List BridgeUtxo}

theorem located_of_mem (hdb : Consistent db) {startBlock endBlock : ℕ}
    (h : (rangeRows cfg db scripts startBlock endBlock).mapM decodeBridgeUtxo = .ok utxos)
    {utxo : BridgeUtxo} (hmem : utxo ∈ utxos) :
    getBlockInfoForUtxo db utxo.txHash = .ok (some ⟨utxo.blockNumber, utxo.txIx⟩) := by
  obtain ⟨row, hrow, hdecode⟩ := exists_of_mem_mapM h hmem
  obtain ⟨hkey, hhash⟩ := decodeBridgeUtxo_eq_ok hdecode
  obtain ⟨hblock, htx, -⟩ := UtxoOrderingKey.mk_inj.mp hkey
  rw [hhash, hblock, htx]
  exact hdb.getBlockInfoForUtxo_of_mem (List.mem_of_mem_filter hrow)

theorem Sound.setCachedTransfers (hdb : Consistent db) {startBlock endBlock : ℕ}
    (h : (rangeRows cfg db cache.mcScripts startBlock endBlock).mapM decodeBridgeUtxo =
      .ok utxos) : (cache.setCachedTransfers startBlock endBlock utxos).Sound cfg db where
  transfers := h
  located utxoId utxo hfound := by
    have hmem := List.mem_of_find?_eq_some hfound
    have hid := List.find?_some hfound
    exact ⟨of_decide_eq_true hid, located_of_mem hdb h (List.mem_reverse.mp hmem)⟩

/-! ## Serving -/

theorem Sound.transfers_sorted (hdb : Consistent db) (h : cache.Sound cfg db) :
    cache.transfers.Pairwise fun a b => a.orderingKey < b.orderingKey := by
  have hkeys := map_eq_of_mapM h.transfers
    fun row utxo hdecode => (decodeBridgeUtxo_eq_ok hdecode).1
  have hpositions : (bridgePositions cfg db
      cache.mcScripts.illiquidCirculationSupplyValidatorAddress
      cache.mcScripts.assetId).Pairwise (· < ·) := hdb.bridgePositions_increasing
  have hrows := List.Pairwise.filter (fun row => decide (cache.startBlock ≤ row.1.blockNo ∧
    row.1.blockNo ≤ cache.endBlock)) (List.pairwise_map.mp hpositions)
  refine List.pairwise_map.mp ?_
  rw [hkeys]
  exact List.pairwise_map.mpr hrows

/-- What follows a checkpoint is served when its range is cached: skipping and stopping select
the same transfers as the conditions of the query. -/
theorem Sound.servedTransfers (hdb : Consistent db) (h : cache.Sound cfg db)
    {checkpoint : ResolvedBridgeDataCheckpoint} {skip : BridgeUtxo → Bool} {toBlock : ℕ}
    (maxTransfers : UInt32)
    (hskip : ∀ utxo, skip utxo = !checkpoint.isBefore utxo.orderingKey)
    (hstart : ∀ key : UtxoOrderingKey, checkpoint.isBefore key = true → cache.startBlock ≤ key.1)
    (hend : toBlock ≤ cache.endBlock) :
    (pageRows cfg db cache.mcScripts checkpoint toBlock maxTransfers).mapM decodeBridgeUtxo =
      .ok (cache.servedTransfers skip toBlock maxTransfers) := by
  have hsorted := h.transfers_sorted hdb
  have hpart : PartitionPoint.Partitioned skip cache.transfers := by
    refine PartitionPoint.partitioned_of_pairwise (hsorted.imp fun {a b} hlt hb => ?_)
    by_contra ha
    rw [hskip, Bool.not_eq_true, Bool.not_eq_false'] at ha
    rw [hskip, checkpoint.isBefore_of_le ha hlt.le] at hb
    cases hb
  have hbound : PartitionPoint.Partitioned
      (fun utxo : BridgeUtxo => decide (utxo.blockNumber ≤ toBlock))
      (cache.transfers.filter fun utxo => !skip utxo) := by
    refine PartitionPoint.partitioned_of_pairwise ((hsorted.filter _).imp fun {a b} hlt hb => ?_)
    exact decide_eq_true ((UtxoOrderingKey.block_le hlt.le).trans (of_decide_eq_true hb))
  have hpage : (scriptsLog cfg db cache.mcScripts).filter
      (fun row => bridgeCondition checkpoint toBlock row.1.orderingKey) =
      (rangeRows cfg db cache.mcScripts cache.startBlock cache.endBlock).filter
        fun row => bridgeCondition checkpoint toBlock row.1.orderingKey := by
    rw [rangeRows, List.filter_filter]
    refine List.filter_congr fun row _ => ?_
    cases hcondition : bridgeCondition checkpoint toBlock row.1.orderingKey with
    | false => rfl
    | true =>
        obtain ⟨hto, hbefore⟩ := Bool.and_eq_true_iff.mp hcondition
        have hle : row.1.blockNo ≤ toBlock := of_decide_eq_true hto
        exact (decide_eq_true ⟨hstart _ hbefore, hle.trans hend⟩).symm
  rw [pageRows, hpage, TokenUtxoCache.servedTransfers, hpart.dropWhile_eq_filter,
    hbound.takeWhile_eq_filter, List.filter_filter]
  refine mapM_take_eq_ok (mapM_filter_eq_ok h.transfers fun row utxo hdecode => ?_) _
  rw [hskip, Bool.not_not, ← (decodeBridgeUtxo_eq_ok hdecode).1]
  rfl

theorem Sound.serveFromCache (hdb : Consistent db) (h : cache.Sound cfg db)
    {checkpoint : ResolvedBridgeDataCheckpoint} {toBlock : ℕ} {maxTransfers : UInt32}
    (hserve : cache.serveFromCache checkpoint toBlock maxTransfers = some utxos) :
    (pageRows cfg db cache.mcScripts checkpoint toBlock maxTransfers).mapM decodeBridgeUtxo =
      .ok utxos := by
  unfold TokenUtxoCache.serveFromCache at hserve
  split_ifs at hserve with hend
  have hend := not_lt.mp hend
  cases checkpoint with
  | block number =>
      dsimp only at hserve
      split_ifs at hserve with hstart
      obtain rfl := Option.some.inj hserve
      refine h.servedTransfers hdb maxTransfers (fun utxo => ?_) (fun key hkey => ?_) hend
      · rw [ResolvedBridgeDataCheckpoint.isBefore, ← decide_not]
        exact decide_eq_decide.mpr not_lt.symm
      · have hlt : number < key.1 := of_decide_eq_true hkey
        have hle : saturatingAdd number 1 ≤ number + 1 := min_le_left _ _
        omega
  | utxo blockNumber txIx txOutIx =>
      dsimp only at hserve
      split_ifs at hserve with hstart
      obtain rfl := Option.some.inj hserve
      refine h.servedTransfers hdb maxTransfers (fun utxo => ?_) (fun key hkey => ?_) hend
      · rw [ResolvedBridgeDataCheckpoint.isBefore, ← decide_not]
        exact decide_eq_decide.mpr not_lt.symm
      · exact hstart.trans (UtxoOrderingKey.block_le (of_decide_eq_true hkey).le)

/-- After a fill, exactly the calls up to its last block are served. -/
theorem serveFromCache_filled_eq_none_iff {checkpoint : ResolvedBridgeDataCheckpoint}
    (hlt : checkpoint.getBlockNumber < 2 ^ 32) {toBlock endBlock : ℕ} {maxTransfers : UInt32} :
    (cache.setCachedTransfers checkpoint.getBlockNumber endBlock utxos).serveFromCache checkpoint
        toBlock maxTransfers = none ↔ endBlock < toBlock := by
  unfold TokenUtxoCache.serveFromCache
  cases checkpoint with
  | block number =>
      have hstart : number ≤ saturatingAdd number 1 :=
        le_min (Nat.le_succ _) (Nat.le_pred_of_lt hlt)
      simp [TokenUtxoCache.setCachedTransfers, ResolvedBridgeDataCheckpoint.getBlockNumber, hstart]
  | utxo blockNumber txIx txOutIx =>
      simp [TokenUtxoCache.setCachedTransfers, ResolvedBridgeDataCheckpoint.getBlockNumber]

end TokenUtxoCache

/-! ## Steps of a call -/

namespace CachedCall

variable {src : CachedSource Recipient} {call : CachedCall db} {toBlock : ℕ}
  {checkpoint : ResolvedBridgeDataCheckpoint} {cache : TokenUtxoCache}

/-- A checkpoint is resolved alike by the cache and by the database. -/
theorem resolveDataCheckpoint_eq_ok_iff (h : cache.Sound cfg db) :
    call.resolveDataCheckpoint cache = .ok checkpoint ↔
      resolveCheckpoint db call.dataCheckpoint = .ok checkpoint := by
  unfold resolveDataCheckpoint resolveCheckpoint
  cases call.dataCheckpoint with
  | block number => simp
  | utxo utxoId =>
      dsimp only
      cases hcached : cache.utxoCache utxoId with
      | some utxo =>
          obtain ⟨rfl, hlocated⟩ := h.located utxoId utxo hcached
          rw [BridgeUtxo.utxoId] at hcached ⊢
          simp [TokenUtxoCache.tryResolveCheckpointFromCache, hcached, hlocated, fromSqlx]
      | none =>
          simp only [TokenUtxoCache.tryResolveCheckpointFromCache, hcached, Option.map_none,
            resolveCheckpointForUtxo]
          cases getBlockInfoForUtxo db utxoId.txHash with
          | error error => simp [fromSqlx, Except.mapError]
          | ok info => cases info <;> simp [fromSqlx]

theorem readFill_eq_ok_iff (hdb : Consistent db) (hzero : FirstBlockEmpty src.txInConfig db)
    {startBlock endBlock : ℕ} {utxos : List BridgeUtxo} :
    call.readFill src checkpoint toBlock = .ok (startBlock, endBlock, utxos) ↔
      ∃ stable, call.getLatestStableBlock = .ok stable ∧
        startBlock = checkpoint.getBlockNumber ∧ endBlock = fillToBlock src toBlock stable ∧
        (rangeRows src.txInConfig db call.mainChainScripts startBlock endBlock).mapM
          decodeBridgeUtxo = .ok utxos := by
  simp only [readFill, getBridgeUtxosTx_range hdb hzero, bind_eq_ok_iff, mapError_eq_ok_iff,
    Except.ok.injEq, Prod.mk.injEq]
  constructor
  · rintro ⟨stable, hstable, _, hrows, rfl, rfl, rfl⟩
    exact ⟨stable, hstable, rfl, rfl, hrows⟩
  · rintro ⟨stable, hstable, rfl, rfl, hrows⟩
    exact ⟨stable, hstable, _, hrows, rfl, rfl, rfl⟩

/-! ### Block numbers -/

theorem toBlock_lt (hfit : BlockNumbersFit db) (hto : call.toBlock = .ok toBlock) :
    toBlock < 2 ^ 31 := by
  obtain ⟨block, hblock, rfl⟩ := toBlock_eq_ok_iff.mp hto
  obtain ⟨row, hrow, hdecode⟩ := BlockSource.getBlockByHash_decode hblock
  exact hfit row hrow _ (BlockRow.decode_eq_ok_iff.mp hdecode).1

theorem checkpoint_blockNumber_lt (hfit : BlockNumbersFit db)
    (h : resolveCheckpoint db call.dataCheckpoint = .ok checkpoint) :
    checkpoint.getBlockNumber < 2 ^ 32 := by
  unfold resolveCheckpoint at h
  cases hdata : call.dataCheckpoint with
  | block number =>
      rw [hdata] at h
      obtain rfl := Except.ok.inj h
      exact call.checkpoint_lt number hdata
  | utxo utxoId =>
      rw [hdata] at h
      obtain ⟨info, hinfo, h⟩ := bind_eq_ok_iff.mp h
      cases info with
      | none => cases h
      | some info =>
          obtain rfl := Except.ok.inj h
          obtain ⟨row, hrow, hnumber⟩ :=
            exists_block_of_getBlockInfoForUtxo (fromSqlx_eq_ok_iff.mp hinfo)
          exact (hfit row hrow _ hnumber).trans (by decide)

/-! ## One call -/

theorem sound_getTransfers (hdb : Consistent db) (hzero : FirstBlockEmpty src.txInConfig db)
    (h : cache.Sound src.txInConfig db) :
    (call.getTransfers src cache).2.Sound src.txInConfig db := by
  have hscripts := h.setMcScripts hzero call.mainChainScripts
  unfold getTransfers
  dsimp only
  split
  · exact hscripts
  · split
    · exact hscripts
    · split
      · exact hscripts
      · split
        · exact hscripts
        · rename_i hfill
          obtain ⟨_, _, _, _, hrows⟩ := (readFill_eq_ok_iff hdb hzero).mp hfill
          refine TokenUtxoCache.Sound.setCachedTransfers hdb ?_
          rwa [TokenUtxoCache.setMcScripts_mcScripts]

/-! ### Errors -/

theorem toBlock_ne_dataShouldBePresent : call.toBlock ≠ .error .dataShouldBePresent := by
  unfold CachedCall.toBlock
  cases call.blocks.getBlockByHash call.currentMcBlockHash with
  | error error => simp [Except.mapError]
  | ok block => cases block <;> simp

theorem resolveDataCheckpoint_ne_dataShouldBePresent :
    call.resolveDataCheckpoint cache ≠ .error .dataShouldBePresent := by
  unfold resolveDataCheckpoint
  cases call.dataCheckpoint with
  | block number => simp
  | utxo utxoId =>
      dsimp only
      split
      · simp
      · unfold resolveCheckpointForUtxo
        cases getBlockInfoForUtxo db utxoId.txHash with
        | error error => simp [Except.mapError]
        | ok info => cases info <;> simp

theorem readFill_ne_dataShouldBePresent :
    call.readFill src checkpoint toBlock ≠ .error .dataShouldBePresent := by
  unfold readFill getLatestStableBlock
  cases call.blocks.getLatestBlockInfo with
  | error error => simp [Except.mapError]
  | ok latest =>
      simp only [mapError_ok, ok_bind]
      cases call.blocks.getLatestStableBlockFor latest.timestamp with
      | error error => simp [Except.mapError]
      | ok stable =>
          simp only [mapError_ok, ok_bind]
          cases getBridgeUtxosTx call.order src.txInConfig db
            call.mainChainScripts.illiquidCirculationSupplyValidatorAddress
            call.mainChainScripts.assetId (.block (checkpoint.getBlockNumber - 1))
            (fillToBlock src toBlock (stable.map (·.number))) none <;> simp [Except.mapError]

theorem uncached_of_toBlock_error {error : CachedError} (hto : call.toBlock = .error error) :
    (call.uncached src).toOption = none := by
  cases huncached : call.uncached src with
  | error error => rfl
  | ok answer =>
      obtain ⟨_, hread, -⟩ := bind_eq_ok_iff.mp huncached
      obtain ⟨block, hblock, hread⟩ := bind_eq_ok_iff.mp hread
      cases block with
      | none => cases hread
      | some block =>
          have hok := toBlock_eq_ok_iff.mpr ⟨block, fromSqlx_eq_ok_iff.mp hblock, rfl⟩
          rw [hto] at hok
          cases hok

theorem uncached_of_resolve_error {error : GetTransfersError}
    (h : resolveCheckpoint db call.dataCheckpoint = .error error) :
    (call.uncached src).toOption = none := by
  cases huncached : call.uncached src with
  | error error => rfl
  | ok answer =>
      obtain ⟨_, hread, -⟩ := bind_eq_ok_iff.mp huncached
      obtain ⟨block, -, hread⟩ := bind_eq_ok_iff.mp hread
      cases block with
      | none => cases hread
      | some block =>
          obtain ⟨checkpoint, hok, -⟩ := bind_eq_ok_iff.mp hread
          rw [h] at hok
          cases hok

end CachedCall

namespace Served

variable {src : CachedSource Recipient} {served : Served Recipient db} {toBlock : ℕ}
  {checkpoint : ResolvedBridgeDataCheckpoint}
variable {error : CachedError}

/-- A call that fails is transparent when the uncached source fails. -/
theorem transparent_iff_of_error (hresult : served.result = .error error)
    (herror : error ≠ .dataShouldBePresent) :
    served.Transparent src ↔ (served.call.uncached src).toOption = none := by
  constructor
  · rintro ⟨hsame, -⟩
    rw [← hsame, hresult]
    rfl
  · intro hnone
    refine ⟨?_, ?_⟩
    · rw [hresult, hnone]
      rfl
    · rw [hresult]
      exact fun h => herror (Except.error.inj h)

theorem uncached_eq_none_iff (hdb : Consistent db) (hto : served.call.toBlock = .ok toBlock)
    (hcheckpoint : resolveCheckpoint db served.call.dataCheckpoint = .ok checkpoint) :
    (served.call.uncached src).toOption = none ↔
      ¬ Readable (pageRows src.txInConfig db served.call.mainChainScripts checkpoint toBlock
        served.call.maxTransfers) := by
  rw [CachedCall.uncached_of_resolved hdb hto hcheckpoint, readable_iff]
  cases (pageRows src.txInConfig db served.call.mainChainScripts checkpoint toBlock
    served.call.maxTransfers).mapM decodeBridgeUtxo <;> simp [Except.toOption]

/-- A call that is served from a sound cache for its scripts is transparent. -/
theorem transparent_of_served (hdb : Consistent db) (hto : served.call.toBlock = .ok toBlock)
    (hcheckpoint : resolveCheckpoint db served.call.dataCheckpoint = .ok checkpoint)
    {cache : TokenUtxoCache} (hsound : cache.Sound src.txInConfig db)
    (hscripts : cache.mcScripts = served.call.mainChainScripts) {utxos : List BridgeUtxo}
    (hserve : served.call.tryServeFromCache checkpoint toBlock cache = some utxos)
    (hresult : served.result = .ok (served.call.answer src toBlock utxos)) :
    served.Transparent src := by
  have hpage := hsound.serveFromCache hdb hserve
  rw [hscripts] at hpage
  refine ⟨?_, ?_⟩
  · rw [hresult, CachedCall.uncached_of_resolved hdb hto hcheckpoint, hpage]
    rfl
  · rw [hresult]
    exact nofun

variable {stable : Option ℕ}

/-- A fill reaches the requested block when the reported stable block does. -/
theorem fillToBlock_lt_iff (hfit : BlockNumbersFit db) (hto : served.call.toBlock = .ok toBlock) :
    CachedCall.fillToBlock src toBlock stable < toBlock ↔ stable.getD toBlock < toBlock := by
  have hlt := CachedCall.toBlock_lt hfit hto
  simp only [CachedCall.fillToBlock, saturatingAdd]
  omega

section Miss

variable (hdb : Consistent db) (hzero : FirstBlockEmpty src.txInConfig db)
  (hsound : served.cache.Sound src.txInConfig db)
  (hresult : served.result = (served.call.getTransfers src served.cache).1)
  (hto : served.call.toBlock = .ok toBlock)
  (hcheckpoint : resolveCheckpoint db served.call.dataCheckpoint = .ok checkpoint)
  (hmiss : served.call.tryServeFromCache checkpoint toBlock
    (served.cache.setMcScripts served.call.mainChainScripts) = none)

include hdb hzero

theorem not_readable_of_fill_error
    (hfill : served.call.readFill src checkpoint toBlock = .error error)
    (hstable : served.call.getLatestStableBlock = .ok stable) :
    ¬ Readable (rangeRows src.txInConfig db served.call.mainChainScripts
      checkpoint.getBlockNumber (CachedCall.fillToBlock src toBlock stable)) := by
  intro hread
  obtain ⟨utxos, hutxos⟩ := readable_iff.mp hread
  have hok : served.call.readFill src checkpoint toBlock = .ok (_, _, utxos) :=
    (CachedCall.readFill_eq_ok_iff hdb hzero).mpr ⟨stable, hstable, rfl, rfl, hutxos⟩
  rw [hfill] at hok
  cases hok

include hsound hresult hto hcheckpoint hmiss

/-- When the fill fails, the uncached source has to fail as well. -/
theorem transparent_iff_of_fill_error
    (hfill : served.call.readFill src checkpoint toBlock = .error error) :
    served.Transparent src ↔
      ¬ Readable (pageRows src.txInConfig db served.call.mainChainScripts checkpoint toBlock
        served.call.maxTransfers) := by
  have hresolved := (CachedCall.resolveDataCheckpoint_eq_ok_iff
    (hsound.setMcScripts hzero served.call.mainChainScripts)).mpr hcheckpoint
  have herror : served.result = .error error := by
    simp only [hresult, CachedCall.getTransfers, hto, hresolved, hmiss, hfill]
  have hne : error ≠ .dataShouldBePresent := fun h =>
    CachedCall.readFill_ne_dataShouldBePresent (h ▸ hfill)
  rw [transparent_iff_of_error herror hne, uncached_eq_none_iff hdb hto hcheckpoint]

/-- After a fill, the call is answered when the reported stable block is not before the
requested one. -/
theorem transparent_iff_of_filled (hfit : BlockNumbersFit db) {utxos : List BridgeUtxo}
    (hfill : served.call.readFill src checkpoint toBlock =
      .ok (checkpoint.getBlockNumber, CachedCall.fillToBlock src toBlock stable, utxos))
    (hutxos : (rangeRows src.txInConfig db served.call.mainChainScripts
      checkpoint.getBlockNumber (CachedCall.fillToBlock src toBlock stable)).mapM
        decodeBridgeUtxo = .ok utxos) :
    served.Transparent src ↔ toBlock ≤ stable.getD toBlock := by
  have hresolved := (CachedCall.resolveDataCheckpoint_eq_ok_iff
    (hsound.setMcScripts hzero served.call.mainChainScripts)).mpr hcheckpoint
  set filled := (served.cache.setMcScripts served.call.mainChainScripts).setCachedTransfers
    checkpoint.getBlockNumber (CachedCall.fillToBlock src toBlock stable) utxos with hfilled
  have hafter : served.result = served.call.answerAfterFill src checkpoint toBlock filled := by
    simp only [hresult, CachedCall.getTransfers, hto, hresolved, hmiss, hfill, hfilled]
  have hnone : served.call.tryServeFromCache checkpoint toBlock filled = none ↔
      stable.getD toBlock < toBlock :=
    (TokenUtxoCache.serveFromCache_filled_eq_none_iff
      (CachedCall.checkpoint_blockNumber_lt hfit hcheckpoint)).trans (fillToBlock_lt_iff hfit hto)
  cases hserve : served.call.tryServeFromCache checkpoint toBlock filled with
  | none =>
      refine iff_of_false (fun h => h.present ?_) (not_le.mpr (hnone.mp hserve))
      rw [hafter, CachedCall.answerAfterFill, hserve]
  | some answered =>
      have hlong : ¬ stable.getD toBlock < toBlock := by
        rw [← hnone, hserve]
        exact nofun
      refine iff_of_true ?_ (not_lt.mp hlong)
      refine transparent_of_served hdb hto hcheckpoint
        (TokenUtxoCache.Sound.setCachedTransfers hdb ?_) ?_ hserve ?_
      · rwa [TokenUtxoCache.setMcScripts_mcScripts]
      · exact TokenUtxoCache.setMcScripts_mcScripts
      · rw [hafter, CachedCall.answerAfterFill, hserve]

/-- A miss is followed by a fill, and the fill must reach the requested block. -/
theorem transparent_iff_of_miss (hfit : BlockNumbersFit db) :
    let fillRows stable := rangeRows src.txInConfig db served.call.mainChainScripts
      checkpoint.getBlockNumber (CachedCall.fillToBlock src toBlock stable)
    served.Transparent src ↔
      (∃ stable, served.call.getLatestStableBlock = .ok stable ∧
        toBlock ≤ stable.getD toBlock ∧ Readable (fillRows stable)) ∨
      ¬ Readable (pageRows src.txInConfig db served.call.mainChainScripts checkpoint toBlock
          served.call.maxTransfers) ∧
        ∀ stable, served.call.getLatestStableBlock = .ok stable → ¬ Readable (fillRows stable) := by
  intro fillRows
  cases hfill : served.call.readFill src checkpoint toBlock with
  | error error =>
      have hunread (stable : Option ℕ) (hstable : served.call.getLatestStableBlock = .ok stable) :
          ¬ Readable (fillRows stable) := not_readable_of_fill_error hdb hzero hfill hstable
      rw [transparent_iff_of_fill_error hdb hzero hsound hresult hto hcheckpoint hmiss hfill]
      constructor
      · exact fun hpage => .inr ⟨hpage, hunread⟩
      · rintro (⟨stable, hstable, -, hread⟩ | ⟨hpage, -⟩)
        · exact absurd hread (hunread stable hstable)
        · exact hpage
  | ok fill =>
      obtain ⟨startBlock, endBlock, utxos⟩ := fill
      obtain ⟨stable, hstable, rfl, rfl, hutxos⟩ :=
        (CachedCall.readFill_eq_ok_iff hdb hzero).mp hfill
      have hread : Readable (fillRows stable) := readable_iff.mpr ⟨utxos, hutxos⟩
      rw [transparent_iff_of_filled hdb hzero hsound hresult hto hcheckpoint hmiss hfit hfill
        hutxos]
      constructor
      · exact fun hle => .inl ⟨stable, hstable, hle, hread⟩
      · rintro (⟨stable', hstable', hle, -⟩ | ⟨-, hunread⟩)
        · obtain rfl := Except.ok.inj (hstable.symm.trans hstable')
          exact hle
        · exact absurd hread (hunread stable hstable)

end Miss

/-- A call whose checkpoint is not found fails with both sources. -/
theorem transparent_of_unresolved {cache : TokenUtxoCache} (hsound : cache.Sound src.txInConfig db)
    (hresolved : served.call.resolveDataCheckpoint cache = .error error)
    (hresult : served.result = .error error) :
    served.Transparent src ∧ ∀ checkpoint,
      resolveCheckpoint db served.call.dataCheckpoint ≠ .ok checkpoint := by
  have hnot (checkpoint : ResolvedBridgeDataCheckpoint) :
      resolveCheckpoint db served.call.dataCheckpoint ≠ .ok checkpoint := by
    rw [Ne, ← CachedCall.resolveDataCheckpoint_eq_ok_iff hsound, hresolved]
    exact nofun
  refine ⟨?_, hnot⟩
  cases hunresolved : resolveCheckpoint db served.call.dataCheckpoint with
  | ok checkpoint => exact absurd hunresolved (hnot checkpoint)
  | error _ =>
      refine (transparent_iff_of_error hresult fun h => ?_).mpr
        (CachedCall.uncached_of_resolve_error hunresolved)
      exact CachedCall.resolveDataCheckpoint_ne_dataShouldBePresent (h ▸ hresolved)

theorem transparent_iff_covered_of_sound (hdb : Consistent db)
    (hzero : FirstBlockEmpty src.txInConfig db) (hfit : BlockNumbersFit db)
    (hsound : served.cache.Sound src.txInConfig db)
    (hresult : served.result = (served.call.getTransfers src served.cache).1) :
    served.Transparent src ↔ served.Covered src := by
  have hscripts := hsound.setMcScripts hzero served.call.mainChainScripts
  cases hto : served.call.toBlock with
  | error error =>
      have herror : served.result = .error error := by
        simp only [hresult, CachedCall.getTransfers, hto]
      refine iff_of_true ?_ fun _ _ hok => by rw [hto] at hok; cases hok
      refine (transparent_iff_of_error herror fun h => ?_).mpr
        (CachedCall.uncached_of_toBlock_error hto)
      exact CachedCall.toBlock_ne_dataShouldBePresent (h ▸ hto)
  | ok toBlock =>
      cases hresolved : served.call.resolveDataCheckpoint
          (served.cache.setMcScripts served.call.mainChainScripts) with
      | error error =>
          obtain ⟨htransparent, hnot⟩ := transparent_of_unresolved hscripts hresolved (by
            simp only [hresult, CachedCall.getTransfers, hto, hresolved])
          exact iff_of_true htransparent fun _ checkpoint _ hok => absurd hok (hnot checkpoint)
      | ok checkpoint =>
          have hcheckpoint :=
            (CachedCall.resolveDataCheckpoint_eq_ok_iff hscripts).mp hresolved
          cases hserve : served.call.tryServeFromCache checkpoint toBlock
              (served.cache.setMcScripts served.call.mainChainScripts) with
          | some utxos =>
              refine iff_of_true ?_ ?_
              · refine transparent_of_served hdb hto hcheckpoint hscripts
                  TokenUtxoCache.setMcScripts_mcScripts hserve ?_
                simp only [hresult, CachedCall.getTransfers, hto, hresolved, hserve]
              · intro toBlock' checkpoint' hto' hcheckpoint' hmiss
                obtain rfl := Except.ok.inj (hto.symm.trans hto')
                obtain rfl := Except.ok.inj (hcheckpoint.symm.trans hcheckpoint')
                rw [hserve] at hmiss
                cases hmiss
          | none =>
              refine (transparent_iff_of_miss hdb hzero hsound hresult hto hcheckpoint hserve
                hfit).trans ?_
              constructor
              · intro h toBlock' checkpoint' hto' hcheckpoint' _
                obtain rfl := Except.ok.inj (hto.symm.trans hto')
                obtain rfl := Except.ok.inj (hcheckpoint.symm.trans hcheckpoint')
                exact h
              · exact fun h => h toBlock checkpoint hto hcheckpoint hserve

end Served

/-! ## Sequences of calls -/

theorem TokenUtxoCache.Sound.serve {src : CachedSource Recipient} (hdb : Consistent db)
    (hzero : FirstBlockEmpty src.txInConfig db) {cache : TokenUtxoCache}
    (h : cache.Sound src.txInConfig db) {calls : List (CachedCall db)}
    {served : Served Recipient db} (hmem : served ∈ serve src cache calls) :
    served.cache.Sound src.txInConfig db ∧
      served.result = (served.call.getTransfers src served.cache).1 := by
  induction calls generalizing cache with
  | nil => cases hmem
  | cons call calls ih =>
      rcases List.mem_cons.mp hmem with rfl | hrest
      · exact ⟨h, rfl⟩
      · exact ih (CachedCall.sound_getTransfers hdb hzero h) hrest

/-- In every sequence of calls, a call is answered like by the uncached source exactly when
the cache that it finds, or the fill that it makes, covers it. -/
theorem served_transparent_iff_covered (src : CachedSource Recipient) (hdb : Consistent db)
    (hfit : BlockNumbersFit db) (hzero : FirstBlockEmpty src.txInConfig db)
    (calls : List (CachedCall db)) (served : Served Recipient db)
    (hmem : served ∈ serve src {} calls) : served.Transparent src ↔ served.Covered src := by
  obtain ⟨hsound, hresult⟩ := TokenUtxoCache.Sound.serve hdb hzero (.empty hzero) hmem
  exact Served.transparent_iff_covered_of_sound hdb hzero hfit hsound hresult

/-- A bridge UTXO is in the block of a transaction. -/
theorem firstBlockEmpty_of_blocks
    (h : ∀ tx ∈ db.tx, ∀ row ∈ db.block, tx.blockId = row.id → row.blockNo ≠ some 0) :
    FirstBlockEmpty cfg db := by
  intro scripts row hrow hblockNo
  have hgroup := (mem_groupSum.mp ((Arrangement.perm _ _).mem_iff.mp hrow)).1
  obtain ⟨joined, hjoined, hfst⟩ := List.mem_map.mp hgroup
  obtain ⟨tx, block, blockNo, _, _, _, _, hobserved, hjoinedGroup⟩ := mem_bridgeRows hjoined
  rw [hfst] at hjoinedGroup
  obtain rfl : blockNo = 0 := by rw [← hblockNo, hjoinedGroup]; rfl
  exact h tx hobserved.tx_mem block hobserved.block_mem hobserved.tx_block hobserved.block_no

/-! ### Two addresses -/

/-- Transfers of 7 and of 9 tokens are made in block 5, to two addresses. -/
def twoAddresses : Database where
  block := [⟨1, .filled 32 1, some 5, some 0, some 100, 2000⟩]
  tx := [⟨1, .filled 32 2, 1, 0⟩]
  txOut := [⟨1, 1, 0, "a", none, none⟩, ⟨2, 1, 1, "b", none, none⟩]
  txIn := []
  maTxOut := [⟨7, 1, 1⟩, ⟨9, 2, 1⟩]
  multiAsset := [⟨1, .filled 28 3, []⟩]
  datum := []

theorem twoAddresses_consistent : Consistent twoAddresses := by constructor <;> decide

theorem twoAddresses_fit : BlockNumbersFit twoAddresses := by
  unfold BlockNumbersFit
  decide

theorem twoAddresses_firstBlockEmpty : FirstBlockEmpty .consumed twoAddresses :=
  firstBlockEmpty_of_blocks (by decide)

/-- A block data source that reports the given block as the latest stable one. -/
def reporting (db : Database) (stable : MainchainBlock) : BlockDataSource db where
  getBlockByHash hash :=
    ((DbSync.getBlockByHash db hash).map (Option.map Block.toMainchainBlock)).mapError .sqlx
  getLatestBlockInfo := .ok stable
  getLatestStableBlockFor _ := .ok (some stable)
  getBlockByHash_eq _ := rfl

/-- A request up to block 5 for the transfers to an address. -/
def upToBlockFive (address : String) (stable : MainchainBlock) : CachedCall twoAddresses where
  order := Arrangement.stable _
  blocks := reporting _ stable
  mainChainScripts := ⟨.filled 28 3, [], address⟩
  dataCheckpoint := .block 4
  maxTransfers := 10
  currentMcBlockHash := .filled 32 1
  checkpoint_lt number h := by cases h; decide

def plainSource : CachedSource ℕ := ⟨fun _ => none, .consumed, 100⟩

def blockFour : MainchainBlock := ⟨4, .filled 32 4, 0, 80, 0⟩

def blockFive : MainchainBlock := ⟨5, .filled 32 1, 0, 100, 0⟩

/-- When block 5 is reported, the request is answered, and so is its repetition from the
cache. -/
theorem served_transparent_iff_covered_repeated :
    ∃ served ∈ serve plainSource {} [upToBlockFive "a" blockFive, upToBlockFive "a" blockFive],
      served.cache.endBlock = 5 ∧ served.Transparent plainSource := by
  have hmem : ⟨upToBlockFive "a" blockFive,
      ((upToBlockFive "a" blockFive).getTransfers plainSource {}).2, _⟩ ∈
      serve plainSource {} [upToBlockFive "a" blockFive, upToBlockFive "a" blockFive] :=
    .tail _ (.head _)
  have hblock : (upToBlockFive "a" blockFive).toBlock = .ok 5 := rfl
  have hresolve : resolveCheckpoint twoAddresses (upToBlockFive "a" blockFive).dataCheckpoint =
      .ok (.block 4) := rfl
  have hserve : (upToBlockFive "a" blockFive).tryServeFromCache (.block 4) 5
      (((upToBlockFive "a" blockFive).getTransfers plainSource {}).2.setMcScripts
        (upToBlockFive "a" blockFive).mainChainScripts) =
        some [⟨5, 0, .filled 32 2, 0, 7, 0, none⟩] := rfl
  refine ⟨_, hmem, rfl, (served_transparent_iff_covered plainSource twoAddresses_consistent
    twoAddresses_fit twoAddresses_firstBlockEmpty _ _ hmem).mpr ?_⟩
  intro toBlock checkpoint hto hcheckpoint hmiss
  obtain rfl := Except.ok.inj (hblock.symm.trans hto)
  obtain rfl := Except.ok.inj (hresolve.symm.trans hcheckpoint)
  exact absurd (hserve.symm.trans hmiss) nofun

/-- When block 4 is reported, the request up to block 5 fails although there is data. -/
theorem fill_before_requested_block :
    ∃ served ∈ serve plainSource {} [upToBlockFive "a" blockFour],
      served.result = .error .dataShouldBePresent ∧
        served.call.uncached plainSource =
          .ok ([.invalidTransfer 7 ⟨.filled 32 2, 0⟩], .block 5) ∧
        ¬ served.Transparent plainSource := by
  refine ⟨_, List.mem_singleton_self _, rfl, rfl, fun h => h.present rfl⟩

end PartnerChains.Bridge
