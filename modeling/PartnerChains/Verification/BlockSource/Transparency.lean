import PartnerChains.Verification.BlockSource.Contract

/-!
# The block cache is transparent

A hit in the cache skips the check that the block is stable. Blocks are cached only when they
are stable, and a stable block stays so while the database grows.
-/

namespace PartnerChains.BlockSource

open DbSync Relational Fallible

variable {order : BlockOrder} {cfg : Config} {db : Database} {cache : BlocksCache}

/-! ## Cached blocks are stable -/

/-- The database has a block that confirms the given one often enough. -/
def Confirmed (cfg : Config) (db : Database) (block : Block) : Prop :=
  ∃ row ∈ db.block, ∃ number, row.blockNo = some number ∧
    saturatingAdd block.blockNo cfg.securityParameter.toNat ≤ number

def BlocksCache.Stable (cfg : Config) (db : Database) (cache : BlocksCache) : Prop :=
  ∀ block ∈ cache.fromLastByHash, Confirmed cfg db block

variable {block : Block}

theorem Confirmed.mono (h : Confirmed cfg db block) {db' : Database} (hsub : db.block ⊆ db'.block) :
    Confirmed cfg db' block := by
  obtain ⟨row, hrow, hnumber⟩ := h
  exact ⟨row, hsub hrow, hnumber⟩

/-- A block is confirmed exactly when the check against the latest block passes. -/
theorem BlockTable.confirmed_iff (htable : BlockTable db) {block latest : Block}
    (hlatest : DbSync.getLatestBlockInfo order db = .ok (some latest)) :
    Confirmed cfg db block ↔
      saturatingAdd block.blockNo cfg.securityParameter.toNat ≤ latest.blockNo := by
  constructor
  · intro h
    obtain ⟨row, hrow, number, hnumber, hle⟩ := h
    obtain ⟨latest', hlatest', hbelow⟩ := htable.exists_latest order hrow hnumber
    rw [hlatest] at hlatest'
    obtain rfl : latest = latest' := by simpa using hlatest'
    exact hle.trans hbelow
  · intro h
    obtain ⟨⟨_, row⟩, hlast, hdecode⟩ := decodeOptional_eq_some_iff.mp hlatest
    have hmem : (_, row) ∈ numberedBlocks db :=
      (order.perm _).mem_iff.mp (List.mem_of_getLast? hlast)
    exact ⟨row, (mem_numberedBlocks.mp hmem).1, latest.blockNo,
      (BlockRow.decode_eq_ok_iff.mp hdecode).1, h⟩

theorem BlockTable.exists_latest_of_confirmed (htable : BlockTable db) (order : BlockOrder)
    (h : Confirmed cfg db block) :
    ∃ latest, DbSync.getLatestBlockInfo order db = .ok (some latest) := by
  obtain ⟨row, hrow, number, hnumber, -⟩ := h
  obtain ⟨latest, hlatest, -⟩ := htable.exists_latest order hrow hnumber
  exact ⟨latest, hlatest⟩

/-- All blocks up to the highest cached number are confirmed. -/
theorem blocksToCache_confirmed (htable : BlockTable db) (hblock : Confirmed cfg db block)
    {blocks : List Block} (h : blocksToCache order cfg db block = .ok blocks) :
    ∀ cached ∈ blocks, Confirmed cfg db cached := by
  intro cached hmem
  simp only [blocksToCache, bind_eq_ok_iff, mapError_eq_ok_iff] at h
  obtain ⟨latest, hlatest, hcached⟩ := h
  cases latest with
  | none => simp at hcached
  | some latest =>
      simp only at hcached
      split_ifs at hcached with hrange
      · obtain ⟨⟨number, row⟩, hfound, hdecode⟩ :=
          exists_of_mem_mapM (mapError_eq_ok_iff.mp hcached) hmem
        rw [(order.perm _).mem_iff] at hfound
        obtain ⟨hrow, hselected⟩ := List.mem_filter.mp hfound
        have hnumber := (mem_numberedBlocks.mp hrow).2.symm.trans
          (BlockRow.decode_eq_ok_iff.mp hdecode).1
        obtain rfl := Option.some.inj hnumber
        rw [decide_eq_true_eq] at hselected
        apply (htable.confirmed_iff hlatest).mpr
        unfold saturatingAdd
        omega
      · obtain rfl := Except.ok.inj hcached
        obtain rfl := List.mem_singleton.mp hmem
        exact hblock

theorem BlocksCache.Stable.mono (h : cache.Stable cfg db) {db' : Database}
    (hsub : db.block ⊆ db'.block) : cache.Stable cfg db' :=
  fun block hblock => (h block hblock).mono hsub

theorem BlocksCache.Stable.getStableBlockFor (htable : BlockTable db) (h : cache.Stable cfg db)
    (hash : McBlockHash) (timestamp : UInt64) :
    (getStableBlockFor order cfg db hash timestamp cache).2.Stable cfg db := by
  refine forall_cached_getStableBlockFor h (fun hanswer hblocks => ?_) hash timestamp
  obtain ⟨-, latest, hlatest, hle⟩ := getStableBlockByHashFromDb_eq_some hanswer
  exact blocksToCache_confirmed htable ((htable.confirmed_iff hlatest).mpr hle) hblocks

/-! ## Answers -/

theorem serveFromDb_fst (hash : McBlockHash) (reference : ℤ) (cache cache' : BlocksCache) :
    (serveFromDb order cfg db hash reference cache).1 =
      (serveFromDb order cfg db hash reference cache').1 := by
  unfold serveFromDb
  cases getStableBlockByHashFromDb order cfg db hash reference with
  | error error => rfl
  | ok answer =>
      cases answer with
      | none => rfl
      | some block => cases hblocks : blocksToCache order cfg db block <;> simp only [hblocks]

/-- A confirmed block of the database passes the database's check exactly when its time is
allowed, and fails as the check of its time does. -/
theorem getStableBlockByHashFromDb_of_confirmed (htable : BlockTable db) (order : BlockOrder)
    {row : BlockRow} (hrow : row ∈ db.block) (hdecode : row.decode = .ok block)
    (h : Confirmed cfg db block) (reference : ℤ) :
    getStableBlockByHashFromDb order cfg db block.hash reference =
      ((isBlockTimeValid cfg block reference).map fun valid =>
        if valid then some block else none).mapError .panic := by
  obtain ⟨latest, hlatest⟩ := htable.exists_latest_of_confirmed order h
  have hstable := (htable.confirmed_iff hlatest).mp h
  simp only [getStableBlockByHashFromDb, htable.getBlockByHash_of_mem hrow hdecode, hlatest,
    mapError_ok, ok_bind, if_pos hstable]
  cases isBlockTimeValid cfg block reference <;> rfl

/-- A cached block is answered as the database would answer it. -/
theorem getStableBlockByHash_fst (htable : BlockTable db) (hsound : cache.Sound db)
    (hstable : cache.Stable cfg db) (hash : McBlockHash) (reference : ℤ) :
    (getStableBlockByHash order cfg db hash reference cache).1 =
      (serveFromDb order cfg db hash reference {}).1 := by
  unfold getStableBlockByHash getStableBlockByHashFromCache
  cases hfind : cache.findByHash hash with
  | none => exact serveFromDb_fst hash reference cache {}
  | some block =>
      obtain ⟨rfl, row, hrow, hdecode⟩ := hsound.findByHash hfind
      have hconfirmed : Confirmed cfg db block := by
        unfold BlocksCache.findByHash at hfind
        split_ifs at hfind
        · exact hstable block (List.mem_of_find?_eq_some hfind)
      have hdb := getStableBlockByHashFromDb_of_confirmed htable order hrow hdecode hconfirmed
        reference
      cases htime : isBlockTimeValid cfg block reference with
      | error panic =>
          rw [htime] at hdb
          simp only [serveFromDb, hdb, htime, error_bind]
          rfl
      | ok valid =>
          cases valid with
          | false =>
              simp only [htime, ok_bind]
              exact serveFromDb_fst block.hash reference cache {}
          | true =>
              obtain ⟨latest, hlatest⟩ := htable.exists_latest_of_confirmed order hconfirmed
              obtain ⟨blocks, hblocks⟩ : ∃ blocks, blocksToCache order cfg db block = .ok blocks :=
                htable.exists_blocksToCache hlatest block
              rw [htime] at hdb
              have hanswer : getStableBlockByHashFromDb order cfg db block.hash reference =
                  .ok (some block) := hdb
              simp [serveFromDb, htime, hanswer, hblocks]

theorem getBlockByHash_cached (htable : BlockTable db) (hsound : cache.Sound db)
    (hash : McBlockHash) : getBlockByHash db hash cache = getBlockByHash db hash {} := by
  unfold getBlockByHash
  cases hfind : cache.findByHash hash with
  | none => rfl
  | some block =>
      obtain ⟨rfl, row, hrow, hdecode⟩ := hsound.findByHash hfind
      simp only [BlocksCache.findByHash, Bool.false_eq_true, if_false, List.find?_nil,
        htable.getBlockByHash_of_mem hrow hdecode]
      rfl

/-! ## Runs -/

structure State.Stable (cfg : Config) (s : State) : Prop where
  sound : s.Sound
  cache : s.cache.Stable cfg s.db

theorem State.Stable.step {s t : State} {event : CallEvent} (h : s.Stable cfg)
    (hstep : (callSystem order cfg).Step s event t) : t.Stable cfg := by
  cases hstep with
  | lookUp hash => exact h
  | source hstep =>
      refine ⟨h.sound.step hstep, ?_⟩
      cases hstep with
      | extend _ hsub => exact h.cache.mono hsub
      | verify hash timestamp => exact h.cache.getStableBlockFor h.sound.table hash timestamp

theorem State.stable_of_run {trace : List CallEvent} {s : State}
    (run : (callSystem order cfg).Run trace s) : s.Stable cfg := by
  refine run.invariant (P := fun _ s => s.Stable cfg) ?_ ?_
  · rintro s ⟨htable, hcache⟩
    refine ⟨⟨htable, ?_⟩, ?_⟩
    all_goals
      rw [hcache]
      intro block hblock
      cases hblock
  · intro _ s event t h hstep
    exact h.step hstep

/-- After any sequence of calls, while the database grows between them, both calls return what
they return with an empty cache. -/
theorem blocksCache_transparent (order : BlockOrder) (cfg : Config) (trace : List CallEvent)
    (s : State) (run : (callSystem order cfg).Run trace s) :
    (∀ hash referenceTimestamp,
      (getStableBlockFor order cfg s.db hash referenceTimestamp s.cache).1 =
        (getStableBlockFor order cfg s.db hash referenceTimestamp {}).1) ∧
    ∀ hash, getBlockByHash s.db hash s.cache = getBlockByHash s.db hash {} := by
  have hs := State.stable_of_run run
  constructor
  · intro hash referenceTimestamp
    unfold getStableBlockFor
    cases timestampToDbType cfg referenceTimestamp with
    | error error => rfl
    | ok reference =>
        exact getStableBlockByHash_fst hs.sound.table hs.sound.cache hs.cache hash reference
  · intro hash
    exact getBlockByHash_cached hs.sound.table hs.sound.cache hash

/-- Block 1 is verified, the chain grows by a block, and block 1 is looked up from the cache. -/
theorem blocksCache_transparent_after_growth :
    ∃ trace s, (callSystem (Arrangement.stable _) smallConfig).Run trace s ∧
      (s.cache.findByHash (.filled 32 1)).isSome = true ∧ s.db = smallDatabase 5 ∧
      (getStableBlockFor (Arrangement.stable _) smallConfig s.db (.filled 32 1) 60000 s.cache).1 =
        (getStableBlockFor (Arrangement.stable _) smallConfig s.db (.filled 32 1) 60000 {}).1 := by
  have hrun := System.Run.step (M := callSystem (Arrangement.stable _) smallConfig)
    (.step (.start (s := ⟨smallDatabase 4, {}⟩) ⟨smallDatabase_table (by decide), rfl⟩)
      (.source (.verify (.filled 32 1) 60000)))
    (.source (.extend (show BlockTable (smallDatabase 5) from smallDatabase_table (by decide))
      (by decide)))
  exact ⟨_, _, hrun, rfl, rfl, (blocksCache_transparent _ _ _ _ hrun).1 _ _⟩

end PartnerChains.BlockSource
