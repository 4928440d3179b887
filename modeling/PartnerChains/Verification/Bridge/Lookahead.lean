import PartnerChains.Verification.Bridge.Cache

/-!
# The lookahead of the bridge cache

After a miss the cache is filled up to some blocks after the requested ones, if they are stable.
The stable block is asked for with the time of the newest block in seconds, where milliseconds are
expected, so that the lookahead only works for requests for blocks as old as that.
-/

namespace PartnerChains.BlockSource

open DbSync Fallible

variable {order : BlockOrder} {cfg : Config} {db : Database} {newest : MainchainBlock}
  {timestamp : UInt64} {offset : ℕ} {window : BlockWindow}

/-- The window and the depth with which the stable block for a timestamp is searched. -/
def SearchedAt (cfg : Config) (timestamp : UInt64) (offset : ℕ) (window : BlockWindow) : Prop :=
  ∃ reference, timestampToDbType cfg timestamp = .ok reference ∧
    allowedWindow cfg reference = .ok window ∧
    Checked.addWith cfg.overflowChecks 32 cfg.securityParameter.toNat
      cfg.blockStabilityMargin.toNat = .ok offset

/-- There is a stable block with this number in the window. -/
def StableIn (db : Database) (newest : MainchainBlock) (offset : ℕ) (window : BlockWindow)
    (number : ℕ) : Prop :=
  ∃ row ∈ db.block, row.blockNo = some number ∧ number ≤ newest.number - offset ∧
    window.contains row = true

theorem getLatestStableBlockFor_eq_ok_iff
    (hnewest : getLatestBlockInfo order db = .ok newest) {found : Option MainchainBlock} :
    getLatestStableBlockFor order cfg db timestamp = .ok found ↔
      ∃ offset window, SearchedAt cfg timestamp offset window ∧
        ∃ block, getHighestBlock order db (newest.number - offset) window = .ok block ∧
          block.map Block.toMainchainBlock = found := by
  simp only [getLatestStableBlockFor, getLatestBlock, SearchedAt, hnewest, bind_eq_ok_iff,
    mapError_eq_ok_iff, Except.ok.injEq, exists_eq_left']
  constructor
  · rintro ⟨reference, href, offset, hoffset, block, ⟨window, hwindow, hblock⟩, hfound⟩
    exact ⟨offset, window, ⟨reference, href, hwindow, hoffset⟩, block, hblock, hfound⟩
  · rintro ⟨offset, window, ⟨reference, href, hwindow, hoffset⟩, block, hblock, hfound⟩
    exact ⟨reference, href, offset, hoffset, block, ⟨window, hwindow, hblock⟩, hfound⟩

/-- Some block is found exactly when there is one, and then it is the highest. -/
theorem getHighestBlock_reaches_iff (htable : BlockTable db) {last default : ℕ} :
    (∃ block, getHighestBlock order db (newest.number - offset) window = .ok block ∧
        last ≤ (block.map (·.blockNo)).getD default) ↔
      (∃ number, StableIn db newest offset window number ∧ last ≤ number) ∨
        last ≤ default ∧ ∀ number, ¬ StableIn db newest offset window number := by
  constructor
  · rintro ⟨block, hblock, hlast⟩
    cases block with
    | none =>
        refine .inr ⟨hlast, ?_⟩
        rintro number ⟨row, hrow, hnumber, hbound, hcontains⟩
        obtain ⟨highest, hhighest, -⟩ :=
          htable.exists_highest order hrow hnumber hbound hcontains
        cases hhighest.symm.trans hblock
    | some block =>
        obtain ⟨row, hrow, hdecode, hbound, hcontains⟩ := getHighestBlock_spec hblock
        exact .inl ⟨block.blockNo,
          ⟨row, hrow, (BlockRow.decode_eq_ok_iff.mp hdecode).1, hbound, hcontains⟩, hlast⟩
  · rintro (⟨number, ⟨row, hrow, hnumber, hbound, hcontains⟩, hlast⟩ | ⟨hlast, hnone⟩)
    · obtain ⟨highest, hhighest, hle⟩ :=
        htable.exists_highest order hrow hnumber hbound hcontains
      exact ⟨some highest, hhighest, hlast.trans hle⟩
    · refine ⟨none, ?_, hlast⟩
      have hempty : ((order.arrange (numberedBlocks db)).filter fun row =>
          decide (row.1 ≤ newest.number - offset) && window.contains row.2).getLast? = none := by
        rw [order.getLast?_filter_eq_none]
        rintro ⟨number, row⟩ hmem
        obtain ⟨hrow, hnumber⟩ := mem_numberedBlocks.mp hmem
        rw [Bool.eq_false_iff, Ne, Bool.and_eq_true, decide_eq_true_eq]
        exact fun ⟨hbound, hcontains⟩ => hnone number ⟨row, hrow, hnumber, hbound, hcontains⟩
      rw [getHighestBlock, hempty]
      rfl

/-- A block in the window for a timestamp is not later than the timestamp. -/
theorem time_le_of_searchedAt (hboundary : 0 ≤ cfg.minSlotBoundary)
    (h : SearchedAt cfg timestamp offset window) {row : BlockRow}
    (hcontains : window.contains row = true) : row.time ≤ 1000 * timestamp.toNat := by
  obtain ⟨reference, href, hwindow, -⟩ := h
  simp only [timestampToDbType] at href
  split_ifs at href
  obtain rfl := Except.ok.inj href
  simp only [allowedWindow, bind_eq_ok_iff, mapError_eq_ok_iff, Except.ok.injEq] at hwindow
  obtain ⟨_, _, _, _, maxTime, hmax, _, _, rfl⟩ := hwindow
  simp only [maxAllowedBlockTime, subDuration] at hmax
  split_ifs at hmax
  simp only [BlockWindow.contains, Bool.and_eq_true, decide_eq_true_eq,
    ← Except.ok.inj hmax] at hcontains
  omega

end PartnerChains.BlockSource

namespace PartnerChains.Bridge

open DbSync Relational Fallible
open BlockSource (SearchedAt StableIn)

variable {Recipient : Type} {db : Database} {src : CachedSource Recipient}
  {served : Served Recipient db} {toBlock endBlock : ℕ}
  {checkpoint : ResolvedBridgeDataCheckpoint} {order : BlockOrder} {cfg : BlockSource.Config}
  {newest tip : MainchainBlock}

/-! ## Fills -/

/-- The cache that a call finds cannot serve it. -/
structure Served.Misses (served : Served Recipient db) (toBlock : ℕ)
    (checkpoint : ResolvedBridgeDataCheckpoint) : Prop where
  located : served.call.toBlock = .ok toBlock
  resolved : resolveCheckpoint db served.call.dataCheckpoint = .ok checkpoint
  unserved : served.call.tryServeFromCache checkpoint toBlock
    (served.cache.setMcScripts served.call.mainChainScripts) = none

/-- From the checkpoint on, the cache serves all requests up to a block with what the database
holds. -/
def TokenUtxoCache.CoversUpTo (cfg : TxInConfiguration) (db : Database)
    (scripts : MainChainScripts) (cache : TokenUtxoCache)
    (checkpoint : ResolvedBridgeDataCheckpoint) (endBlock : ℕ) : Prop :=
  ∀ toBlock ≤ endBlock, ∀ maxTransfers, ∃ utxos,
    cache.serveFromCache checkpoint toBlock maxTransfers = some utxos ∧
      (pageRows cfg db scripts checkpoint toBlock maxTransfers).mapM decodeBridgeUtxo = .ok utxos

/-- A cache that was filled from the checkpoint on covers what was read. -/
theorem TokenUtxoCache.coversUpTo_filled_iff {txInConfig : TxInConfiguration}
    {cache : TokenUtxoCache} {scripts : MainChainScripts} {lastBlock : ℕ} {utxos : List BridgeUtxo}
    (hdb : Consistent db) (hlt : checkpoint.getBlockNumber < 2 ^ 32)
    (hscripts : cache.mcScripts = scripts)
    (hrows : (rangeRows txInConfig db scripts checkpoint.getBlockNumber lastBlock).mapM
      decodeBridgeUtxo = .ok utxos) :
    (cache.setCachedTransfers checkpoint.getBlockNumber lastBlock utxos).CoversUpTo txInConfig db
      scripts checkpoint endBlock ↔ endBlock ≤ lastBlock := by
  subst hscripts
  constructor
  · intro h
    obtain ⟨_, hserve, -⟩ := h endBlock le_rfl 0
    refine not_lt.mp fun hshort => ?_
    rw [(serveFromCache_filled_eq_none_iff hlt).mpr hshort] at hserve
    cases hserve
  · intro hend toBlock hto maxTransfers
    obtain ⟨answer, hserve⟩ := Option.ne_none_iff_exists'.mp fun hnone =>
      (serveFromCache_filled_eq_none_iff hlt).mp hnone |>.not_ge (hto.trans hend)
    exact ⟨answer, hserve, (Sound.setCachedTransfers hdb hrows).serveFromCache hdb hserve⟩

def Served.after (src : CachedSource Recipient) (served : Served Recipient db) :
    TokenUtxoCache :=
  (served.call.getTransfers src served.cache).2

section Fill

variable (hdb : Consistent db) (hfit : BlockNumbersFit db)
  (hzero : FirstBlockEmpty src.txInConfig db)
  (hread : Readable (scriptsLog src.txInConfig db served.call.mainChainScripts))
  (hsound : served.cache.Sound src.txInConfig db) (hmiss : served.Misses toBlock checkpoint)

include hdb hfit hzero hread hsound hmiss

/-- After a miss, the cache covers what the fill has read. -/
theorem Served.Misses.coversUpTo_iff (hle : toBlock ≤ endBlock) :
    (served.after src).CoversUpTo src.txInConfig db served.call.mainChainScripts checkpoint
        endBlock ↔
      ∃ stable, served.call.getLatestStableBlock = .ok stable ∧
        endBlock ≤ CachedCall.fillToBlock src toBlock stable := by
  have hresolved := (CachedCall.resolveDataCheckpoint_eq_ok_iff
    (hsound.setMcScripts hzero served.call.mainChainScripts)).mpr hmiss.resolved
  have hlt := CachedCall.checkpoint_blockNumber_lt hfit hmiss.resolved
  simp only [Served.after, CachedCall.getTransfers, hmiss.located, hresolved, hmiss.unserved]
  cases hfill : served.call.readFill src checkpoint toBlock with
  | error error =>
      constructor
      · intro h
        obtain ⟨utxos, hserve, -⟩ := h toBlock hle served.call.maxTransfers
        cases hmiss.unserved.symm.trans hserve
      · rintro ⟨stable, hstable, -⟩
        refine absurd (fun row hrow => ?_)
          (Served.not_readable_of_fill_error hdb hzero hfill hstable)
        exact hread row (List.mem_of_mem_filter hrow)
  | ok fill =>
      obtain ⟨startBlock, lastBlock, utxos⟩ := fill
      obtain ⟨stable, hstable, rfl, rfl, hrows⟩ :=
        (CachedCall.readFill_eq_ok_iff hdb hzero).mp hfill
      refine (TokenUtxoCache.coversUpTo_filled_iff hdb hlt TokenUtxoCache.setMcScripts_mcScripts
        hrows).trans ⟨fun hend => ⟨stable, hstable, hend⟩, ?_⟩
      rintro ⟨stable', hstable', hend⟩
      obtain rfl := Except.ok.inj (hstable.symm.trans hstable')
      exact hend

end Fill

/-! ## The stable tip -/

/-- The stable block for the time of the newest block. Blocks have their time in seconds, and
timestamps are milliseconds. -/
structure StableTip (order : BlockOrder) (cfg : BlockSource.Config) (db : Database)
    (newest tip : MainchainBlock) : Prop where
  isNewest : BlockSource.getLatestBlockInfo order db = .ok newest
  isTip : ∃ timestamp : UInt64, timestamp.toNat = 1000 * newest.timestamp ∧
    BlockSource.getLatestStableBlockFor order cfg db timestamp = .ok (some tip)

/-- The block that is reported is searched with the time in seconds. -/
theorem exists_getLatestStableBlock_iff {call : CachedCall db}
    {htable : BlockSource.BlockTable db} {blocksCache : BlockSource.BlocksCache}
    {hcache : blocksCache.Sound db}
    (hblocks : call.blocks = dbSyncBlocks order cfg htable blocksCache hcache)
    (hnewest : BlockSource.getLatestBlockInfo order db = .ok newest) {last : ℕ} :
    (∃ stable, call.getLatestStableBlock = .ok stable ∧ last ≤ stable.getD toBlock) ↔
      ∃ offset window, SearchedAt cfg (.ofNat newest.timestamp) offset window ∧
        ((∃ number, StableIn db newest offset window number ∧ last ≤ number) ∨
          last ≤ toBlock ∧ ∀ number, ¬ StableIn db newest offset window number) := by
  simp only [CachedCall.getLatestStableBlock, hblocks, dbSyncBlocks, hnewest, bind_eq_ok_iff,
    mapError_eq_ok_iff, Except.ok.injEq, exists_eq_left',
    BlockSource.getLatestStableBlockFor_eq_ok_iff hnewest,
    ← @BlockSource.getHighestBlock_reaches_iff order _ _ _ _ htable]
  constructor
  · rintro ⟨_, ⟨_, ⟨offset, window, hsearch, block, hblock, rfl⟩, rfl⟩, hlast⟩
    refine ⟨offset, window, hsearch, block, hblock, ?_⟩
    rwa [Option.map_map] at hlast
  · rintro ⟨offset, window, hsearch, block, hblock, hlast⟩
    refine ⟨_, ⟨_, ⟨offset, window, hsearch, block, hblock, rfl⟩, rfl⟩, ?_⟩
    rwa [Option.map_map]

section Lookahead

variable (hdb : Consistent db) (hfit : BlockNumbersFit db)
  (hzero : FirstBlockEmpty src.txInConfig db) {htable : BlockSource.BlockTable db}
  {blocksCache : BlockSource.BlocksCache} {hcache : blocksCache.Sound db}
  (hsound : served.cache.Sound src.txInConfig db)
  (hread : Readable (scriptsLog src.txInConfig db served.call.mainChainScripts))
  (hblocks : served.call.blocks = dbSyncBlocks order cfg htable blocksCache hcache)
  (hmiss : served.Misses toBlock checkpoint) (hstable : StableTip order cfg db newest tip)
  (hbelow : toBlock < tip.number)

include hdb hfit hzero hsound hread hblocks hmiss hstable hbelow

theorem Served.Misses.lookahead :
    (served.after src).CoversUpTo src.txInConfig db served.call.mainChainScripts checkpoint
        (min (saturatingAdd toBlock src.cacheLookahead.toNat) tip.number) ↔
      ∃ offset window, SearchedAt cfg (.ofNat newest.timestamp) offset window ∧
        ((∃ number, StableIn db newest offset window number ∧
            min (saturatingAdd toBlock src.cacheLookahead.toNat) tip.number ≤ number) ∨
          src.cacheLookahead = 0 ∧ ∀ number, ¬ StableIn db newest offset window number) := by
  have hto := CachedCall.toBlock_lt hfit hmiss.located
  have hle : toBlock ≤ min (saturatingAdd toBlock src.cacheLookahead.toNat) tip.number := by
    rw [saturatingAdd]
    omega
  have hnone : min (saturatingAdd toBlock src.cacheLookahead.toNat) tip.number ≤ toBlock ↔
      src.cacheLookahead = 0 := by
    rw [← UInt32.toNat_inj, saturatingAdd]
    simp only [UInt32.toNat_zero]
    omega
  rw [hmiss.coversUpTo_iff hdb hfit hzero hread hsound hle, ← hnone,
    ← exists_getLatestStableBlock_iff hblocks hstable.isNewest]
  simp only [CachedCall.fillToBlock, le_min_iff, min_le_left, true_and]

/-- The lookahead is lost when the requested block is later than the time in seconds, taken as
milliseconds. -/
theorem Served.Misses.not_coversUpTo_of_recent (hboundary : 0 ≤ cfg.minSlotBoundary)
    (htime : newest.timestamp < 2 ^ 64)
    (hrecent : ∀ row ∈ db.block, row.blockNo = some toBlock → 1000 * newest.timestamp < row.time)
    (hlookahead : src.cacheLookahead ≠ 0) :
    ¬ (served.after src).CoversUpTo src.txInConfig db served.call.mainChainScripts checkpoint
      (min (saturatingAdd toBlock src.cacheLookahead.toNat) tip.number) := by
  rw [hmiss.lookahead hdb hfit hzero hsound hread hblocks hstable hbelow]
  rintro ⟨offset, window, hsearch, ⟨number, hnumber, hlast⟩ | ⟨hnone, -⟩⟩
  · obtain ⟨row, hrow, hrowNo, -, hcontains⟩ := hnumber
    obtain ⟨block, hblock, hblockNo⟩ := CachedCall.toBlock_eq_ok_iff.mp hmiss.located
    obtain ⟨requested, hrequested, hdecode⟩ := BlockSource.getBlockByHash_decode hblock
    have hrequestedNo := (BlockRow.decode_eq_ok_iff.mp hdecode).1
    rw [hblockNo] at hrequestedNo
    have hto := CachedCall.toBlock_lt hfit hmiss.located
    have hlater : requested.time ≤ row.time :=
      htable.time requested hrequested row hrow _ _ hrequestedNo hrowNo
        (by rw [saturatingAdd] at hlast; omega)
    have hearly := BlockSource.time_le_of_searchedAt hboundary hsearch hcontains
    rw [UInt64.toNat_ofNat_of_lt' htime] at hearly
    exact absurd (hrecent requested hrequested hrequestedNo) (by omega)
  · exact hlookahead hnone

end Lookahead

/-- After a miss, in any sequence of calls, the cache covers the lookahead up to the stable tip
exactly when some block that far is in the window for the time in seconds, taken as milliseconds.
Without a lookahead there may also be no block in this window. -/
theorem lookahead_iff (src : CachedSource Recipient) (hdb : Consistent db)
    (hfit : BlockNumbersFit db) (hzero : FirstBlockEmpty src.txInConfig db)
    (htable : BlockSource.BlockTable db) (blocksCache : BlockSource.BlocksCache)
    (hcache : blocksCache.Sound db) (calls : List (CachedCall db)) (served : Served Recipient db)
    (hmem : served ∈ serve src {} calls)
    (hread : Readable (scriptsLog src.txInConfig db served.call.mainChainScripts))
    (hblocks : served.call.blocks = dbSyncBlocks order cfg htable blocksCache hcache)
    (hmiss : served.Misses toBlock checkpoint) (hstable : StableTip order cfg db newest tip)
    (hbelow : toBlock < tip.number) :
    (served.after src).CoversUpTo src.txInConfig db served.call.mainChainScripts checkpoint
        (min (saturatingAdd toBlock src.cacheLookahead.toNat) tip.number) ↔
      ∃ offset window, SearchedAt cfg (.ofNat newest.timestamp) offset window ∧
        ((∃ number, StableIn db newest offset window number ∧
            min (saturatingAdd toBlock src.cacheLookahead.toNat) tip.number ≤ number) ∨
          src.cacheLookahead = 0 ∧ ∀ number, ¬ StableIn db newest offset window number) :=
  hmiss.lookahead hdb hfit hzero (TokenUtxoCache.Sound.serve hdb hzero (.empty hzero) hmem).1
    hread hblocks hstable hbelow

/-! ### Two transfers -/

def timedRow (seconds : ℕ → ℕ) (number : ℕ) : BlockRow :=
  ⟨number, .filled 32 (.ofNat number), some number, some 0, some (seconds number),
    1000000 * seconds number⟩

/-- Six blocks, with a transfer of 5 tokens in block 1 and of 7 tokens in block 2. -/
def twoTransfers (seconds : ℕ → ℕ) : Database where
  block := (List.range 6).map (timedRow seconds)
  tx := [⟨1, .filled 32 11, 1, 0⟩, ⟨2, .filled 32 12, 2, 0⟩]
  txOut := [⟨1, 1, 0, "a", none, none⟩, ⟨2, 2, 0, "a", none, none⟩]
  txIn := []
  maTxOut := [⟨5, 1, 1⟩, ⟨7, 2, 1⟩]
  multiAsset := [⟨1, .filled 28 3, []⟩]
  datum := []

/-- Ten seconds apart, in November 2023. -/
def recent (number : ℕ) : ℕ := 1700000000 + 10 * number

/-- The first three blocks are a thousand times older. -/
def ancient (number : ℕ) : ℕ := if number < 3 then 1699970 + 10 * number else recent number

theorem monotone_recent : Monotone recent := fun n m hle => by
  simp only [recent]
  omega

theorem monotone_ancient : Monotone ancient := fun n m hle => by
  simp only [ancient, recent]
  split_ifs <;> omega

theorem twoTransfers_table {seconds : ℕ → ℕ} (h : Monotone seconds) :
    BlockSource.BlockTable (twoTransfers seconds) := by
  refine .of_numbered rfl (fun _ => rfl) (fun n hn m hm heq => ?_) (fun n m hle => ?_)
    fun _ => ⟨rfl, rfl⟩
  · exact BlockSource.filled_ofNat_inj (by omega) (by omega) heq
  · exact Nat.mul_le_mul_left _ (h hle)

theorem emptyCache_sound : BlockSource.BlocksCache.Sound db {} := nofun

/-- A request up to block 1. -/
def upToBlockOne {seconds : ℕ → ℕ} (h : Monotone seconds) : CachedCall (twoTransfers seconds) where
  order := Arrangement.stable _
  blocks := dbSyncBlocks (Arrangement.stable _) BlockSource.smallConfig (twoTransfers_table h) {}
    emptyCache_sound
  mainChainScripts := ⟨.filled 28 3, [], "a"⟩
  dataCheckpoint := .block 0
  maxTransfers := 10
  currentMcBlockHash := .filled 32 1
  checkpoint_lt number h := by cases h; decide

def blockThree : MainchainBlock := ⟨3, .filled 32 3, 0, 1700000030, 1700000030⟩

def newestBlock : MainchainBlock := ⟨5, .filled 32 5, 0, 1700000050, 1700000050⟩

/-- The request on an empty cache. -/
def firstCall {seconds : ℕ → ℕ} (h : Monotone seconds) (src : CachedSource ℕ) :
    Served ℕ (twoTransfers seconds) :=
  ⟨upToBlockOne h, {}, ((upToBlockOne h).getTransfers src {}).1⟩

/-- Both transfers are in the cache after a request up to block 1 with a lookahead of one block. -/
theorem lookahead_iff_ancient :
    let src : CachedSource ℕ := ⟨fun _ => none, .consumed, 1⟩
    let served := firstCall monotone_ancient src
    (served.after src).transfers.map (·.tokensOut) = [5, 7] ∧
      (served.after src).CoversUpTo .consumed (twoTransfers ancient)
        served.call.mainChainScripts (.block 0) 2 := by
  intro src served
  have hread : (scriptsLog .consumed (twoTransfers ancient) ⟨.filled 28 3, [], "a"⟩).mapM
      decodeBridgeUtxo = .ok [⟨1, 0, .filled 32 11, 0, 5, 0, none⟩,
        ⟨2, 0, .filled 32 12, 0, 7, 0, none⟩] := by
    decide +kernel
  refine ⟨by decide +kernel, (lookahead_iff src (by constructor <;> decide)
    (by unfold BlockNumbersFit; decide) (firstBlockEmpty_of_blocks (by decide))
    (twoTransfers_table monotone_ancient) {} emptyCache_sound [upToBlockOne monotone_ancient]
    served (List.mem_singleton_self _) (readable_iff.mpr ⟨_, hread⟩) rfl ⟨rfl, rfl, rfl⟩
    (⟨rfl, 1700000050000, rfl, rfl⟩ : StableTip _ _ _ newestBlock blockThree) (by decide)).mpr ?_⟩
  exact ⟨2, _, ⟨_, rfl, rfl, rfl⟩, .inl ⟨2, ⟨timedRow ancient 2, by decide, rfl, by decide, rfl⟩,
    by decide⟩⟩

/-- With a lookahead of 100 blocks and a stable block 3, the cache ends with block 1. -/
theorem lookahead_lost :
    let served := firstCall monotone_recent plainSource
    served ∈ serve plainSource {} [upToBlockOne monotone_recent] ∧
      served.Misses 1 (.block 0) ∧
      StableTip (Arrangement.stable _) BlockSource.smallConfig (twoTransfers recent) newestBlock
        blockThree ∧
      (served.after plainSource).endBlock = 1 ∧
      (served.after plainSource).transfers.map (·.tokensOut) = [5] ∧
      ¬ (served.after plainSource).CoversUpTo .consumed (twoTransfers recent)
        served.call.mainChainScripts (.block 0)
        (min (saturatingAdd 1 plainSource.cacheLookahead.toNat) blockThree.number) := by
  intro served
  have hread : (scriptsLog .consumed (twoTransfers recent) ⟨.filled 28 3, [], "a"⟩).mapM
      decodeBridgeUtxo = .ok [⟨1, 0, .filled 32 11, 0, 5, 0, none⟩,
        ⟨2, 0, .filled 32 12, 0, 7, 0, none⟩] := by
    decide +kernel
  have hmiss : served.Misses 1 (.block 0) := ⟨rfl, rfl, rfl⟩
  have hzero : FirstBlockEmpty .consumed (twoTransfers recent) :=
    firstBlockEmpty_of_blocks (by decide)
  have htip : StableTip (Arrangement.stable _) BlockSource.smallConfig (twoTransfers recent)
      newestBlock blockThree := ⟨rfl, 1700000050000, rfl, rfl⟩
  have hblocks : served.call.blocks = dbSyncBlocks (Arrangement.stable _)
      BlockSource.smallConfig (twoTransfers_table monotone_recent) {} emptyCache_sound := rfl
  refine ⟨List.mem_singleton_self _, hmiss, htip, by decide +kernel, by decide +kernel, ?_⟩
  exact hmiss.not_coversUpTo_of_recent (by constructor <;> decide)
    (by unfold BlockNumbersFit; decide) hzero (.empty hzero) (readable_iff.mpr ⟨_, hread⟩) hblocks
    htip (by decide) (by decide) (by decide) (by decide) (by decide)

end PartnerChains.Bridge
