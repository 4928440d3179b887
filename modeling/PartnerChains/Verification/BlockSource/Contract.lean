import PartnerChains.Model.BlockHistory

/-!
# Proposed blocks are verified

Proposing subtracts the security parameter and the margin from the number of the tip and
stops at zero; verifying adds the security parameter to the number of the block. Both agree
unless the tip is below the security parameter.
-/

namespace PartnerChains.DbSync

open Relational Fallible

theorem mem_numberedBlocks {db : Database} {number : ℕ} {row : BlockRow} :
    (number, row) ∈ numberedBlocks db ↔ row ∈ db.block ∧ row.blockNo = some number := by
  simp only [numberedBlocks, List.mem_filterMap, Option.map_eq_some_iff, Prod.mk.injEq]
  constructor
  · rintro ⟨row', hmem, number', hnumber, rfl, rfl⟩
    exact ⟨hmem, hnumber⟩
  · rintro ⟨hmem, hnumber⟩
    exact ⟨row, hmem, number, hnumber, rfl, rfl⟩

theorem decodeNotNull_eq_ok_iff {α : Type} {column : String} {value : Option α} {result : α} :
    decodeNotNull column value = .ok result ↔ value = some result := by
  cases value <;> simp [decodeNotNull]

theorem BlockRow.decode_eq_ok_iff {row : BlockRow} {block : Block} :
    row.decode = .ok block ↔ row.blockNo = some block.blockNo ∧ row.hash = block.hash ∧
      row.epochNo = some block.epochNo ∧ row.slotNo = some block.slotNo ∧
      row.time = block.time := by
  simp only [BlockRow.decode, bind_eq_ok_iff, decodeNotNull_eq_ok_iff, Except.ok.injEq]
  constructor
  · rintro ⟨blockNo, hno, epochNo, hepoch, slotNo, hslot, rfl⟩
    exact ⟨hno, rfl, hepoch, hslot, rfl⟩
  · rintro ⟨hno, hhash, hepoch, hslot, htime⟩
    exact ⟨_, hno, _, hepoch, _, hslot, by rw [hhash, htime]⟩

theorem decodeOptional_eq_some_iff {row : Option (ℕ × BlockRow)} {block : Block} :
    decodeOptional row = .ok (some block) ↔ ∃ found, row = some found ∧
      found.2.decode = .ok block := by
  cases row with
  | none => simp [decodeOptional]
  | some found =>
      obtain ⟨number, row⟩ := found
      cases hdecode : row.decode <;> simp [decodeOptional, hdecode, Except.map]

end PartnerChains.DbSync

namespace PartnerChains.BlockSource

open DbSync Relational Fallible

variable {order : BlockOrder} {cfg : Config} {db : Database}

/-! ## Queries -/

namespace BlockTable

variable {number : ℕ} {row : BlockRow}

theorem exists_decode (h : BlockTable db) (hrow : row ∈ db.block)
    (hnumber : row.blockNo = some number) :
    ∃ block, row.decode = .ok block ∧ block.blockNo = number := by
  obtain ⟨hepoch, hslot⟩ := h.dated row hrow number hnumber
  obtain ⟨epochNo, hepochNo⟩ := Option.isSome_iff_exists.mp hepoch
  obtain ⟨slotNo, hslotNo⟩ := Option.isSome_iff_exists.mp hslot
  refine ⟨⟨number, row.hash, epochNo, slotNo, row.time⟩, ?_, rfl⟩
  exact BlockRow.decode_eq_ok_iff.mpr ⟨hnumber, rfl, hepochNo, hslotNo, rfl⟩

theorem getBlockByHash_of_mem (h : BlockTable db) (hrow : row ∈ db.block) {block : Block}
    (hdecode : row.decode = .ok block) :
    DbSync.getBlockByHash db block.hash = .ok (some block) := by
  have hhash := (BlockRow.decode_eq_ok_iff.mp hdecode).2.1
  have hfind : (db.block.find? fun other => other.hash = block.hash) = some row := by
    cases hfound : db.block.find? fun other => other.hash = block.hash with
    | none => exact absurd (List.find?_eq_none.mp hfound row hrow) (by simp [hhash])
    | some other =>
        have heq : other.hash = block.hash := by simpa using List.find?_some hfound
        rw [h.hash other (List.mem_of_find?_eq_some hfound) row hrow (heq.trans hhash.symm)]
  simp [DbSync.getBlockByHash, hfind, hdecode, Except.map]

theorem exists_latest (h : BlockTable db) (order : BlockOrder) (hrow : row ∈ db.block)
    (hnumber : row.blockNo = some number) :
    ∃ latest, DbSync.getLatestBlockInfo order db = .ok (some latest) ∧
      number ≤ latest.blockNo := by
  have hall : (order.arrange (numberedBlocks db)).filter (fun _ => true) =
      order.arrange (numberedBlocks db) := by simp
  have hmem : (number, row) ∈ numberedBlocks db := mem_numberedBlocks.mpr ⟨hrow, hnumber⟩
  cases hlast : (order.arrange (numberedBlocks db)).getLast? with
  | none =>
      rw [← hall, order.getLast?_filter_eq_none] at hlast
      exact absurd (hlast _ hmem) (by simp)
  | some found =>
      obtain ⟨last, lastRow⟩ := found
      have hspec := order.getLast?_filter_spec (hall ▸ hlast)
      obtain ⟨hlastMem, hlastNo⟩ := mem_numberedBlocks.mp hspec.1
      obtain ⟨latest, hdecode, rfl⟩ := h.exists_decode hlastMem hlastNo
      refine ⟨latest, ?_, hspec.2.2 _ hmem rfl⟩
      exact decodeOptional_eq_some_iff.mpr ⟨_, hlast, hdecode⟩

theorem exists_highest (h : BlockTable db) (order : BlockOrder) {window : BlockWindow} {bound : ℕ}
    (hrow : row ∈ db.block) (hnumber : row.blockNo = some number) (hbound : number ≤ bound)
    (hwindow : window.contains row = true) :
    ∃ block, getHighestBlock order db bound window = .ok (some block) ∧
      number ≤ block.blockNo := by
  have hmem : (number, row) ∈ numberedBlocks db := mem_numberedBlocks.mpr ⟨hrow, hnumber⟩
  cases hlast : ((order.arrange (numberedBlocks db)).filter fun row =>
      decide (row.1 ≤ bound) && window.contains row.2).getLast? with
  | none =>
      rw [order.getLast?_filter_eq_none] at hlast
      exact absurd (hlast _ hmem) (by simp [hbound, hwindow])
  | some found =>
      obtain ⟨highest, highestRow⟩ := found
      have hspec := order.getLast?_filter_spec hlast
      obtain ⟨hhighest, hhighestNo⟩ := mem_numberedBlocks.mp hspec.1
      obtain ⟨block, hdecode, rfl⟩ := h.exists_decode hhighest hhighestNo
      refine ⟨block, ?_, hspec.2.2 _ hmem (by simp [hbound, hwindow])⟩
      exact decodeOptional_eq_some_iff.mpr ⟨_, hlast, hdecode⟩

theorem exists_getBlocksByNumbers (h : BlockTable db) (order : BlockOrder) (first last : ℕ) :
    ∃ blocks, getBlocksByNumbers order db first last = .ok blocks := by
  refine exists_mapM_iff.mpr fun found hfound => ?_
  rw [(order.perm _).mem_iff] at hfound
  obtain ⟨hrow, hnumber⟩ := mem_numberedBlocks.mp (List.mem_of_mem_filter hfound)
  obtain ⟨block, hdecode, -⟩ := h.exists_decode hrow hnumber
  exact ⟨block, hdecode⟩

end BlockTable

theorem getHighestBlock_spec {window : BlockWindow} {bound : ℕ} {block : Block}
    (h : getHighestBlock order db bound window = .ok (some block)) :
    ∃ row ∈ db.block, row.decode = .ok block ∧ block.blockNo ≤ bound ∧
      window.contains row = true := by
  obtain ⟨⟨number, row⟩, hlast, hdecode⟩ := decodeOptional_eq_some_iff.mp h
  have hspec := order.getLast?_filter_spec hlast
  obtain ⟨hrow, hnumber⟩ := mem_numberedBlocks.mp hspec.1
  have heq := hnumber.symm.trans (BlockRow.decode_eq_ok_iff.mp hdecode).1
  obtain rfl := Option.some.inj heq
  have hselected := hspec.2.1
  rw [Bool.and_eq_true, decide_eq_true_eq] at hselected
  exact ⟨row, hrow, hdecode, hselected.1, hselected.2⟩

/-! ## Proposals -/

/-- What it takes to propose a block. -/
structure Proposed (order : BlockOrder) (cfg : Config) (db : Database) (reference : ℤ)
    (tip block : Block) : Prop where
  latest : latestBlock order db = .ok tip
  highest : ∃ offset window, Checked.addWith cfg.overflowChecks 32 cfg.securityParameter.toNat
      cfg.blockStabilityMargin.toNat = .ok offset ∧ allowedWindow cfg reference = .ok window ∧
    getHighestBlock order db (tip.blockNo - offset) window = .ok (some block)

variable {timestamp : UInt64}

theorem getLatestStableBlockFor_eq_some_iff {result : MainchainBlock} :
    getLatestStableBlockFor order cfg db timestamp = .ok (some result) ↔
      ∃ reference tip block, timestampToDbType cfg timestamp = .ok reference ∧
        Proposed order cfg db reference tip block ∧ block.toMainchainBlock = result := by
  simp only [getLatestStableBlockFor, getLatestBlockInfo, getLatestBlock, bind_eq_ok_iff,
    mapError_eq_ok_iff, Except.ok.injEq, Option.map_eq_some_iff]
  constructor
  · rintro ⟨reference, href, latest, hlatest, offset, hoffset, _, ⟨window, hwindow, hhighest⟩,
      block, rfl, rfl⟩
    cases htip : latestBlock order db with
    | error error =>
        rw [htip] at hlatest
        cases hlatest
    | ok tip =>
        rw [htip] at hlatest
        cases hlatest
        exact ⟨reference, tip, block, href, ⟨htip, offset, window, hoffset, hwindow, hhighest⟩, rfl⟩
  · rintro ⟨reference, tip, block, href, ⟨htip, offset, window, hoffset, hwindow, hhighest⟩, rfl⟩
    exact ⟨reference, href, _, by rw [htip]; rfl, offset, hoffset, some block,
      ⟨window, hwindow, hhighest⟩, block, rfl, rfl⟩

variable {reference : ℤ}

theorem isBlockTimeValid_of_contains {window : BlockWindow}
    (hwindow : allowedWindow cfg reference = .ok window) {row : BlockRow}
    (hcontains : window.contains row = true) {block : Block} (hdecode : row.decode = .ok block) :
    isBlockTimeValid cfg block reference = .ok true := by
  simp only [allowedWindow, bind_eq_ok_iff, mapError_eq_ok_iff, Except.ok.injEq] at hwindow
  obtain ⟨minTime, hmin, _, -, maxTime, hmax, _, -, rfl⟩ := hwindow
  simp only [BlockWindow.contains, Bool.and_eq_true, decide_eq_true_eq] at hcontains
  rw [(BlockRow.decode_eq_ok_iff.mp hdecode).2.2.2.2] at hcontains
  simp [isBlockTimeValid, hmin, hmax, hcontains.2]

/-! ## The cache -/

/-- Cached blocks are blocks of the database. -/
def BlocksCache.Sound (db : Database) (cache : BlocksCache) : Prop :=
  ∀ block ∈ cache.fromLastByHash, ∃ row ∈ db.block, row.decode = .ok block

variable {cache : BlocksCache}

theorem BlocksCache.Sound.mono (h : cache.Sound db) {db' : Database} (hsub : db.block ⊆ db'.block) :
    cache.Sound db' := by
  intro block hblock
  obtain ⟨row, hrow, hdecode⟩ := h block hblock
  exact ⟨row, hsub hrow, hdecode⟩

variable {hash : McBlockHash}

theorem BlocksCache.Sound.findByHash (h : cache.Sound db) {block : Block}
    (hfind : cache.findByHash hash = some block) :
    block.hash = hash ∧ ∃ row ∈ db.block, row.decode = .ok block := by
  unfold BlocksCache.findByHash at hfind
  split_ifs at hfind
  · exact ⟨by simpa using List.find?_some hfind, h block (List.mem_of_find?_eq_some hfind)⟩

theorem getBlockByHash_decode {block : Block}
    (h : DbSync.getBlockByHash db hash = .ok (some block)) :
    ∃ row ∈ db.block, row.decode = .ok block := by
  unfold DbSync.getBlockByHash at h
  cases hfind : db.block.find? fun row => row.hash = hash with
  | none => simp [hfind] at h
  | some row =>
      refine ⟨row, List.mem_of_find?_eq_some hfind, ?_⟩
      cases hdecode : row.decode with
      | error error => simp [hfind, hdecode, Except.map] at h
      | ok decoded => simpa [hfind, hdecode, Except.map] using h

/-- The database answers with a block that its latest one confirms. -/
theorem getStableBlockByHashFromDb_eq_some {block : Block}
    (h : getStableBlockByHashFromDb order cfg db hash reference = .ok (some block)) :
    DbSync.getBlockByHash db hash = .ok (some block) ∧
      ∃ latest, DbSync.getLatestBlockInfo order db = .ok (some latest) ∧
        saturatingAdd block.blockNo cfg.securityParameter.toNat ≤ latest.blockNo := by
  simp only [getStableBlockByHashFromDb, bind_eq_ok_iff, mapError_eq_ok_iff] at h
  obtain ⟨found, hfound, latest, hlatest, hanswer⟩ := h
  cases found with
  | none => simp at hanswer
  | some found =>
      cases latest with
      | none => simp at hanswer
      | some latest =>
          simp only at hanswer
          split_ifs at hanswer with hstable
          · obtain ⟨valid, -, hvalid⟩ := bind_eq_ok_iff.mp hanswer
            cases valid with
            | false => simp at hvalid
            | true =>
                obtain rfl : found = block := by simpa using hvalid
                exact ⟨hfound, latest, hlatest, hstable⟩
          · simp at hanswer

theorem blocksToCache_spec {block : Block} (hblock : ∃ row ∈ db.block, row.decode = .ok block)
    {blocks : List Block} (h : blocksToCache order cfg db block = .ok blocks) :
    ∀ cached ∈ blocks, ∃ row ∈ db.block, row.decode = .ok cached := by
  obtain ⟨latest, -, hcached⟩ := bind_eq_ok_iff.mp h
  cases latest with
  | none => simp at hcached
  | some latest =>
      simp only at hcached
      split_ifs at hcached
      · intro cached hmem
        obtain ⟨found, hfound, hdecode⟩ :=
          exists_of_mem_mapM (mapError_eq_ok_iff.mp hcached) hmem
        rw [(order.perm _).mem_iff] at hfound
        obtain ⟨hrow, -⟩ := mem_numberedBlocks.mp (List.mem_of_mem_filter hfound)
        exact ⟨_, hrow, hdecode⟩
      · obtain rfl := Except.ok.inj hcached
        simpa using hblock

/-- What holds for the cached blocks and for those that are added to them. -/
theorem forall_cached_getStableBlockFor {P : Block → Prop}
    (h : ∀ block ∈ cache.fromLastByHash, P block)
    (hfill : ∀ {hash reference block blocks},
      getStableBlockByHashFromDb order cfg db hash reference = .ok (some block) →
      blocksToCache order cfg db block = .ok blocks → ∀ cached ∈ blocks, P cached)
    (hash : McBlockHash) (timestamp : UInt64) :
    ∀ block ∈ (getStableBlockFor order cfg db hash timestamp cache).2.fromLastByHash, P block := by
  unfold getStableBlockFor
  cases timestampToDbType cfg timestamp with
  | error error => exact h
  | ok reference =>
      simp only [getStableBlockByHash]
      cases getStableBlockByHashFromCache cfg cache hash reference with
      | error panic => exact h
      | ok answer =>
          cases answer with
          | some block => exact h
          | none =>
              simp only [serveFromDb]
              cases hanswer : getStableBlockByHashFromDb order cfg db hash reference with
              | error error => exact h
              | ok answer =>
                  cases answer with
                  | none => exact h
                  | some block =>
                      cases hblocks : blocksToCache order cfg db block with
                      | error error => simpa only [hblocks] using h
                      | ok blocks =>
                          simp only [hblocks, BlocksCache.update]
                          split_ifs
                          · exact h
                          · exact hfill hanswer hblocks

theorem BlocksCache.Sound.getStableBlockFor (h : cache.Sound db) (hash : McBlockHash)
    (timestamp : UInt64) : (getStableBlockFor order cfg db hash timestamp cache).2.Sound db := by
  refine forall_cached_getStableBlockFor h (fun hanswer hblocks => ?_) hash timestamp
  exact blocksToCache_spec
    (getBlockByHash_decode (getStableBlockByHashFromDb_eq_some hanswer).1) hblocks

theorem BlockTable.exists_blocksToCache (htable : BlockTable db) {latest : Block}
    (hlatest : DbSync.getLatestBlockInfo order db = .ok (some latest)) (block : Block) :
    ∃ blocks, blocksToCache order cfg db block = .ok blocks := by
  simp only [blocksToCache, hlatest, mapError_ok, ok_bind]
  split_ifs
  · obtain ⟨blocks, hblocks⟩ := htable.exists_getBlocksByNumbers order block.blockNo
      (min (saturatingAdd block.blockNo cfg.cacheSize.toNat)
        (latest.blockNo - cfg.securityParameter.toNat))
    exact ⟨blocks, mapError_eq_ok_iff.mpr hblocks⟩
  · exact ⟨_, rfl⟩

/-! ## Verification of proposed blocks -/

/-- A block that is deep enough and allowed for the timestamp is verified, whether it is
cached or not. -/
theorem getStableBlockFor_of_deep (htable : BlockTable db) (hcache : cache.Sound db)
    (href : timestampToDbType cfg timestamp = .ok reference) {row : BlockRow}
    (hrow : row ∈ db.block) {block : Block} (hdecode : row.decode = .ok block)
    (hvalid : isBlockTimeValid cfg block reference = .ok true) {latest : Block}
    (hlatest : DbSync.getLatestBlockInfo order db = .ok (some latest))
    (hdeep : block.blockNo + cfg.securityParameter.toNat ≤ latest.blockNo) :
    (getStableBlockFor order cfg db block.hash timestamp cache).1 =
      .ok (some block.toMainchainBlock) := by
  simp only [getStableBlockFor, href, getStableBlockByHash, getStableBlockByHashFromCache]
  cases hfind : cache.findByHash block.hash with
  | some cached =>
      obtain ⟨hhash, row', hrow', hdecode'⟩ := hcache.findByHash hfind
      have hcached := htable.getBlockByHash_of_mem hrow' hdecode'
      rw [hhash, htable.getBlockByHash_of_mem hrow hdecode] at hcached
      obtain rfl : block = cached := by simpa using hcached
      simp [hvalid]
  | none =>
      have hstable : saturatingAdd block.blockNo cfg.securityParameter.toNat ≤ latest.blockNo :=
        (min_le_left _ _).trans hdeep
      have hdb : getStableBlockByHashFromDb order cfg db block.hash reference =
          .ok (some block) := by
        simp [getStableBlockByHashFromDb, htable.getBlockByHash_of_mem hrow hdecode, hlatest,
          hstable, hvalid]
      obtain ⟨blocks, hblocks⟩ : ∃ blocks, blocksToCache order cfg db block = .ok blocks :=
        htable.exists_blocksToCache hlatest block
      simp [serveFromDb, hdb, hblocks]

/-! ## Later states -/

structure State.Sound (s : State) : Prop where
  table : BlockTable s.db
  cache : s.cache.Sound s.db

theorem State.Sound.step {s t : State} {event : Event} (h : s.Sound)
    (hstep : (system order cfg).Step s event t) : t.Sound := by
  cases hstep with
  | extend htable hsub => exact ⟨htable, h.cache.mono hsub⟩
  | verify hash timestamp => exact ⟨h.table, h.cache.getStableBlockFor hash timestamp⟩

variable {s : State}

theorem State.sound_of_run {trace : List Event} (run : (system order cfg).Run trace s) :
    s.Sound := by
  refine run.invariant (P := fun _ s => s.Sound) ?_ ?_
  · rintro s ⟨htable, hcache⟩
    refine ⟨htable, ?_⟩
    rw [hcache]
    intro block hblock
    cases hblock
  · intro _ s event t h hstep
    exact h.step hstep

theorem block_subset_of_reaches {s later : State} (h : (system order cfg).Reaches s later) :
    s.db.block ⊆ later.db.block := by
  refine h.invariant (P := fun later => s.db.block ⊆ later.db.block) ?_ (List.Subset.refl _)
  intro t event u hsub hstep
  cases hstep with
  | extend _ hext => exact List.Subset.trans hsub hext
  | verify hash timestamp => exact hsub

theorem latestBlock_eq_ok_iff {tip : Block} :
    latestBlock order db = .ok tip ↔ DbSync.getLatestBlockInfo order db = .ok (some tip) := by
  simp only [latestBlock, bind_eq_ok_iff, mapError_eq_ok_iff]
  constructor
  · rintro ⟨found, hfound, htip⟩
    cases found with
    | none => simp at htip
    | some found =>
        obtain rfl := Except.ok.inj htip
        exact hfound
  · intro h
    exact ⟨some tip, h, rfl⟩

variable {tip block : Block}

/-- A proposed block that is deep enough meets the contract in every later state. -/
theorem Proposed.verified_later (hs : s.Sound)
    (href : timestampToDbType cfg timestamp = .ok reference)
    (h : Proposed order cfg s.db reference tip block)
    (hdeep : block.blockNo + cfg.securityParameter.toNat ≤ tip.blockNo) {later : State}
    (hlater : (system order cfg).Reaches s later) :
    (getStableBlockFor order cfg later.db block.hash timestamp later.cache).1 =
      .ok (some block.toMainchainBlock) := by
  obtain ⟨_, window, -, hwindow, hhighest⟩ := h.highest
  obtain ⟨row, hrow, hdecode, -, hcontains⟩ := getHighestBlock_spec hhighest
  have hsub := block_subset_of_reaches hlater
  have hsound : later.Sound :=
    hlater.invariant (fun _ _ _ hs hstep => State.Sound.step hs hstep) hs
  -- the old tip is still in the database, so the new one is not below it
  obtain ⟨⟨_, tipRow⟩, hlast, htipDecode⟩ :=
    decodeOptional_eq_some_iff.mp (latestBlock_eq_ok_iff.mp h.latest)
  have htipMem : (_, tipRow) ∈ numberedBlocks s.db :=
    (order.perm _).mem_iff.mp (List.mem_of_getLast? hlast)
  obtain ⟨latest, hlatest, hle⟩ := hsound.table.exists_latest order
    (hsub (mem_numberedBlocks.mp htipMem).1) (BlockRow.decode_eq_ok_iff.mp htipDecode).1
  exact getStableBlockFor_of_deep hsound.table hsound.cache href (hsub hrow) hdecode
    (isBlockTimeValid_of_contains hwindow hcontains hdecode) hlatest (hdeep.trans hle)

/-! ## The contract -/

section Offset

variable {k margin : ℕ}

/-- Two numbers of 32 bits wrap around at most once. -/
theorem addWith_of_wrap (hk : k < 2 ^ 32) (hmargin : margin < 2 ^ 32)
    (hoverflow : 2 ^ 32 ≤ k + margin) :
    Checked.addWith false 32 k margin = .ok (k + margin - 2 ^ 32) := by
  have hmod : (k + margin) % 2 ^ 32 = k + margin - 2 ^ 32 := by
    rw [Nat.mod_eq_sub_mod hoverflow]
    exact Nat.mod_eq_of_lt (by omega)
  exact congrArg Except.ok hmod

end Offset

/-- The bound on the proposed block is the depth that verification asks for, when the tip and
the window are as required. -/
theorem Proposed.deep (href : timestampToDbType cfg timestamp = .ok reference)
    (h : Proposed order cfg db reference tip block) (hdeep : DeepEnough order cfg db timestamp) :
    block.blockNo + cfg.securityParameter.toNat ≤ tip.blockNo := by
  obtain ⟨offset, window, hoffset, hwindow, hhighest⟩ := h.highest
  obtain ⟨row, hrow, hdecode, hbound, hcontains⟩ := getHighestBlock_spec hhighest
  have hnumber := (BlockRow.decode_eq_ok_iff.mp hdecode).1
  have hcondition := hdeep reference window tip href hwindow h.latest
  have hk := cfg.securityParameter.toNat_lt
  have hmargin := cfg.blockStabilityMargin.toNat_lt
  dsimp only at hcondition
  split_ifs at hcondition with hfits
  · rw [Checked.addWith_of_lt _ hfits, Except.ok.injEq] at hoffset
    rcases hcondition with hk | hzero
    · omega
    · have hpos : block.blockNo ≠ 0 := by
        intro heq
        rw [hzero row hrow (heq ▸ hnumber)] at hcontains
        cases hcontains
      omega
  · cases hchecks : cfg.overflowChecks with
    | true =>
        rw [hchecks, Checked.addWith, if_pos rfl, Checked.add_of_le (not_lt.mp hfits)] at hoffset
        cases hoffset
    | false =>
        rw [hchecks, addWith_of_wrap hk hmargin (not_lt.mp hfits), Except.ok.injEq] at hoffset
        rcases hcondition with htrue | hall
        · rw [hchecks] at htrue
          cases htrue
        · rcases hall row hrow hcontains _ hnumber with hdone | hlt
          · exact hdone
          · omega

/-- A block of the window that the bound does not exclude makes the data source propose a
block that is not below it. -/
theorem BlockTable.exists_proposed (htable : BlockTable db) {offset : ℕ} {window : BlockWindow}
    {tip : Block} (hwindow : allowedWindow cfg reference = .ok window)
    (htip : latestBlock order db = .ok tip)
    (hoffset : Checked.addWith cfg.overflowChecks 32 cfg.securityParameter.toNat
      cfg.blockStabilityMargin.toNat = .ok offset) {row : BlockRow} (hrow : row ∈ db.block)
    {number : ℕ} (hnumber : row.blockNo = some number) (hcontains : window.contains row = true)
    (hbound : number ≤ tip.blockNo - offset) :
    ∃ block, Proposed order cfg db reference tip block ∧ number ≤ block.blockNo := by
  obtain ⟨block, hhighest, hle⟩ := htable.exists_highest order hrow hnumber hbound hcontains
  exact ⟨block, ⟨htip, offset, window, hoffset, hwindow, hhighest⟩, hle⟩

theorem MeetsContract.deep (h : MeetsContract order cfg s timestamp)
    (href : timestampToDbType cfg timestamp = .ok reference)
    (hproposed : Proposed order cfg s.db reference tip block) :
    block.blockNo + cfg.securityParameter.toNat ≤ tip.blockNo := by
  obtain ⟨⟨tip', htip', hdeep⟩, -⟩ := h block.toMainchainBlock
    (getLatestStableBlockFor_eq_some_iff.mpr ⟨reference, tip, block, href, hproposed, rfl⟩)
  rw [getLatestBlockInfo, hproposed.latest] at htip'
  obtain rfl := Except.ok.inj htip'
  exact hdeep

theorem MeetsContract.deepEnough (hs : s.Sound) (h : MeetsContract order cfg s timestamp) :
    DeepEnough order cfg s.db timestamp := by
  intro reference window tip href hwindow htip
  have hk := cfg.securityParameter.toNat_lt
  have hmargin := cfg.blockStabilityMargin.toNat_lt
  dsimp only
  split_ifs with hfits
  · by_contra! hfail
    obtain ⟨hlow, row, hrow, hzero, hcontains⟩ := hfail
    obtain ⟨block, hproposed, -⟩ := hs.table.exists_proposed hwindow htip
      (Checked.addWith_of_lt _ hfits) hrow hzero (by simpa using hcontains) (Nat.zero_le _)
    have hdeep := h.deep href hproposed
    omega
  · by_contra! hfail
    obtain ⟨hchecks, row, hrow, hcontains, number, hnumber, hshallow, hbound⟩ := hfail
    have hoffset := addWith_of_wrap hk hmargin (not_lt.mp hfits)
    rw [← Bool.eq_false_iff.mpr hchecks] at hoffset
    obtain ⟨block, hproposed, hle⟩ := hs.table.exists_proposed hwindow htip hoffset hrow hnumber
      hcontains hbound
    have hdeep := h.deep href hproposed
    omega

/-- In every reachable state, what is proposed for a timestamp is as deep as required and is
verified from then on exactly when the tip and the allowed window are as required. -/
theorem meetsContract_iff_deepEnough (order : BlockOrder) (cfg : Config) (trace : List Event)
    (s : State) (run : (system order cfg).Run trace s) (timestamp : UInt64) :
    MeetsContract order cfg s timestamp ↔ DeepEnough order cfg s.db timestamp := by
  have hs := State.sound_of_run run
  constructor
  · exact fun h => h.deepEnough hs
  · intro hdeep result hresult
    obtain ⟨reference, tip, block, href, hproposed, rfl⟩ :=
      getLatestStableBlockFor_eq_some_iff.mp hresult
    have hbelow := hproposed.deep href hdeep
    refine ⟨⟨tip.toMainchainBlock, by rw [getLatestBlockInfo, hproposed.latest]; rfl, hbelow⟩, ?_⟩
    exact fun later hlater => hproposed.verified_later hs href hbelow hlater

/-! ### A chain that is shorter than the security parameter -/

/-- Two confirmations, blocks that are 10 to 60 seconds old. -/
def smallConfig : Config where
  overflowChecks := true
  calendar := ⟨-10 ^ 18, 10 ^ 18⟩
  securityParameter := 2
  minSlotBoundary := 10000
  maxSlotBoundary := 60000
  mainchainEpochConfig := ⟨432000000, 1000, 0, 0, 0⟩
  blockStabilityMargin := 0
  cacheSize := 100

def smallRow (number : ℕ) : BlockRow :=
  ⟨number, .filled 32 (.ofNat number), some number, some 0, some (10 * number),
    10000000 * number⟩

/-- Blocks numbered from 0 on, ten seconds apart. -/
def smallDatabase (length : ℕ) : Database where
  block := (List.range length).map smallRow
  tx := []
  txOut := []
  txIn := []
  maTxOut := []
  multiAsset := []
  datum := []

theorem filled_ofNat_inj {n m : ℕ} (hn : n < 256) (hm : m < 256)
    (h : Bytes.filled 32 (.ofNat n) = Bytes.filled 32 (.ofNat m)) : n = m := by
  have hbyte : UInt8.ofNat n = UInt8.ofNat m := by
    have hhead := congrArg (fun bytes : Bytes 32 => bytes.val.head?) h
    simpa [Bytes.filled] using hhead
  have hmod := congrArg UInt8.toNat hbyte
  rw [UInt8.toNat_ofNat', UInt8.toNat_ofNat'] at hmod
  omega

theorem BlockTable.of_numbered {row : ℕ → BlockRow} {length : ℕ}
    (hblock : db.block = (List.range length).map row)
    (hnumber : ∀ n, (row n).blockNo = some n)
    (hhash : ∀ n < length, ∀ m < length, (row n).hash = (row m).hash → n = m)
    (htime : Monotone fun n => (row n).time)
    (hdated : ∀ n, (row n).epochNo.isSome ∧ (row n).slotNo.isSome) : BlockTable db := by
  have hmem {found : BlockRow} (h : found ∈ db.block) : ∃ n < length, row n = found := by
    simpa [hblock] using h
  constructor
  · rintro a ha b hb heq
    obtain ⟨n, hn, rfl⟩ := hmem ha
    obtain ⟨m, hm, rfl⟩ := hmem hb
    rw [hhash n hn m hm heq]
  · rintro a ha b hb number hno hno'
    obtain ⟨n, -, rfl⟩ := hmem ha
    obtain ⟨m, -, rfl⟩ := hmem hb
    rw [hnumber] at hno hno'
    rw [Option.some.inj hno, Option.some.inj hno']
  · rintro a ha b hb first last - hlast number - hle
    obtain ⟨m, hm, rfl⟩ := hmem hb
    rw [hnumber] at hlast
    obtain rfl := Option.some.inj hlast
    refine ⟨row number, ?_, hnumber number⟩
    rw [hblock]
    exact List.mem_map_of_mem (List.mem_range.mpr (hle.trans_lt hm))
  · rintro a ha b hb first last hfirst hlast hle
    obtain ⟨n, -, rfl⟩ := hmem ha
    obtain ⟨m, -, rfl⟩ := hmem hb
    rw [hnumber] at hfirst hlast
    obtain rfl := Option.some.inj hfirst
    obtain rfl := Option.some.inj hlast
    exact htime hle
  · rintro found hfound number -
    obtain ⟨n, -, rfl⟩ := hmem hfound
    exact hdated n

theorem smallDatabase_table {length : ℕ} (hlength : length ≤ 256) :
    BlockTable (smallDatabase length) := by
  refine .of_numbered rfl (fun _ => rfl) (fun n hn m hm h => ?_) ?_ fun _ => ⟨rfl, rfl⟩
  · exact filled_ofNat_inj (by omega) (by omega) h
  · exact fun n m hle => Nat.mul_le_mul_left _ hle

/-- On a chain with four blocks, block 1 is proposed and verified from then on. -/
theorem meetsContract_iff_deepEnough_four_blocks :
    getLatestStableBlockFor (Arrangement.stable _) smallConfig (smallDatabase 4) 60000 =
        .ok (some ⟨1, .filled 32 1, 0, 10, 10⟩) ∧
      MeetsContract (Arrangement.stable _) smallConfig ⟨smallDatabase 4, {}⟩ 60000 := by
  refine ⟨rfl, (meetsContract_iff_deepEnough _ smallConfig [] ⟨smallDatabase 4, {}⟩
    (.start ⟨smallDatabase_table (by decide), rfl⟩) 60000).mpr ?_⟩
  intro reference window tip _ _ htip
  have hlatest : latestBlock (Arrangement.stable _) (smallDatabase 4) =
      .ok ⟨3, .filled 32 3, 0, 30, 30000000⟩ := rfl
  obtain rfl := Except.ok.inj (hlatest.symm.trans htip)
  exact .inl (by decide)

/-- On a chain with two blocks and two confirmations required, block 0 is proposed for a
timestamp for which it is not verified. -/
theorem proposed_before_it_is_stable :
    (system (Arrangement.stable _) smallConfig).Run [] ⟨smallDatabase 2, {}⟩ ∧
      getLatestStableBlockFor (Arrangement.stable _) smallConfig (smallDatabase 2) 60000 =
        .ok (some ⟨0, .filled 32 0, 0, 0, 0⟩) ∧
      (getStableBlockFor (Arrangement.stable _) smallConfig (smallDatabase 2) (.filled 32 0)
        60000 {}).1 = .ok none ∧
      ¬ MeetsContract (Arrangement.stable _) smallConfig ⟨smallDatabase 2, {}⟩ 60000 := by
  refine ⟨.start ⟨smallDatabase_table (by decide), rfl⟩, rfl, rfl, fun h => ?_⟩
  obtain ⟨⟨tip, htip, hdeep⟩, -⟩ := h ⟨0, .filled 32 0, 0, 0, 0⟩ rfl
  have hlatest : getLatestBlockInfo (Arrangement.stable _) (smallDatabase 2) =
      .ok ⟨1, .filled 32 1, 0, 10, 10⟩ := rfl
  obtain rfl := Except.ok.inj (hlatest.symm.trans htip)
  exact absurd hdeep (by decide)

end PartnerChains.BlockSource
