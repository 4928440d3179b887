import PartnerChains.Model.CandidatesHistory

/-!
# The caching data source is transparent

A block of a later epoch that has ever been the security parameter below the tip survives every
change of the main chain, and with it all blocks of the epochs before its own. The remembered
epoch and the epoch of every cached answer are before the epoch of such a block.
-/

namespace PartnerChains.Candidates

open DbSync AuthoritySelection Fallible

/-! ## Permanent epochs -/

/-- A block of a later epoch is among so many of the oldest blocks. -/
def Permanent (deepest : ℕ) (blocks : List (ℕ × BlockRow)) (epoch : McEpochNumber) : Prop :=
  ∃ before block after, blocks = before ++ block :: after ∧
    before.length < deepest ∧ ∃ later ∈ block.2.epochNo, epoch < later

variable {securityParameter : UInt32} {deepest deepest' : ℕ}
  {blocks blocks' : List (ℕ × BlockRow)} {epoch : McEpochNumber}

theorem Permanent.ended (h : Permanent deepest blocks epoch) : Ended blocks epoch := by
  obtain ⟨before, block, after, rfl, _, hlater⟩ := h
  exact ⟨block, by simp, hlater⟩

theorem Permanent.mono (h : Permanent deepest blocks epoch) {earlier : McEpochNumber}
    (hle : earlier ≤ epoch) : Permanent deepest blocks earlier := by
  obtain ⟨before, block, after, hblocks, hdepth, later, hlater, hlt⟩ := h
  exact ⟨before, block, after, hblocks, hdepth, later, hlater, hle.trans_lt hlt⟩

theorem Permanent.deeper (h : Permanent deepest blocks epoch) (hle : deepest ≤ deepest') :
    Permanent deepest' blocks epoch := by
  obtain ⟨before, block, after, hblocks, hdeep, hlater⟩ := h
  exact ⟨before, block, after, hblocks, hdeep.trans_le hle, hlater⟩

/-- The blocks of the earlier epochs are below a block of a later epoch. -/
theorem blocksUpTo_append {before after : List (ℕ × BlockRow)} {block : ℕ × BlockRow}
    (hchain : MainChain (before ++ block :: after)) {later : ℕ} (hlater : later ∈ block.2.epochNo)
    (hlt : epoch < later) :
    blocksUpTo (before ++ block :: after) epoch = blocksUpTo before epoch := by
  have hnone : blocksUpTo (block :: after) epoch = [] := by
    have hsorted := (List.pairwise_append.mp hchain.epochs).2.1
    refine List.filter_eq_nil_iff.mpr ?_
    intro other hother
    cases hepoch : other.2.epochNo with
    | none => simp
    | some otherEpoch =>
        have hle : later ≤ otherEpoch := by
          cases List.mem_cons.mp hother with
          | inl hsame =>
              rw [hsame, Option.mem_def.mp hlater] at hepoch
              exact (Option.some.inj hepoch).le
          | inr hafter =>
              exact (List.pairwise_cons.mp hsorted).1 other hafter later hlater otherEpoch hepoch
        simp only [Option.any_some, decide_eq_true_eq]
        exact not_le_of_gt (hlt.trans_le hle)
  unfold blocksUpTo at hnone ⊢
  rw [List.filter_append, hnone, List.append_nil]

/-- A change of the main chain that keeps the oldest blocks keeps the block of the later epoch and
all blocks below it. -/
theorem Permanent.replaced (h : Permanent deepest blocks epoch) (hchain : MainChain blocks)
    (hchain' : MainChain blocks') (hkept : blocks.take deepest <+: blocks')
    (hle : deepest ≤ deepest') :
    Permanent deepest' blocks' epoch ∧ blocksUpTo blocks epoch = blocksUpTo blocks' epoch := by
  obtain ⟨before, block, after, rfl, hdeep, later, hlater, hlt⟩ := h
  obtain ⟨after', rfl⟩ : before ++ [block] <+: blocks' := by
    refine (List.prefix_take_iff.mpr ⟨⟨after, by simp⟩, ?_⟩).trans hkept
    simpa using hdeep
  rw [List.append_assoc, List.singleton_append] at hchain' ⊢
  refine ⟨⟨before, block, after', rfl, hdeep.trans_le hle, later, hlater, hlt⟩, ?_⟩
  rw [blocksUpTo_append hchain hlater hlt, blocksUpTo_append hchain' hlater hlt]

/-! ## The latest stable epoch -/

variable {ε : Type} {db : Database}

theorem bindBlockNumber_eq (number : UInt32) :
    bindBlockNumber number =
      if number.toNat < 2 ^ 31 then (number.toNat : ℤ) else (number.toNat : ℤ) - 2 ^ 32 := by
  unfold bindBlockNumber
  rw [BitVec.toInt_eq_toNat_cond, UInt32.toNat_toBitVec]
  split_ifs <;> omega

theorem int4Sub_eq_ok {a b difference : ℤ}
    (h : (int4Sub a b : Except (DataSourceError ε) ℤ) = .ok difference) : difference = a - b := by
  unfold int4Sub at h
  split_ifs at h
  exact (Except.ok.inj h).symm

/-- A row pairs a block with the block whose number is lower by the bound parameter. -/
theorem mem_stableBlockRows {rows : List (ℕ × BlockRow)} {row : ℕ × BlockRow}
    (h : (stableBlockRows db securityParameter : Except (DataSourceError ε) _) = .ok rows)
    (hrow : row ∈ rows) :
    (∃ block, (row.1, block) ∈ numberedBlocks db) ∧
      ∃ number, (number, row.2) ∈ numberedBlocks db ∧
        (number : ℤ) = row.1 - bindBlockNumber securityParameter := by
  unfold stableBlockRows at h
  obtain ⟨differences, hdifferences, hrows⟩ := bind_eq_ok_iff.mp h
  rw [← Except.ok.inj hrows, List.mem_flatMap] at hrow
  obtain ⟨pair, hpair, hrow⟩ := hrow
  obtain ⟨stable, hstable, rfl⟩ := List.mem_map.mp hrow
  obtain ⟨hstable, hnumber⟩ := List.mem_filter.mp hstable
  obtain ⟨block, hblock, hstep⟩ := exists_of_mem_mapM hdifferences hpair
  obtain ⟨difference, hsub, hpairEq⟩ := bind_eq_ok_iff.mp hstep
  have hpairEq := Except.ok.inj hpairEq
  refine ⟨⟨block.2, ?_⟩, stable.1, hstable, ?_⟩
  · rw [← hpairEq]
    exact hblock
  · rw [← of_decide_eq_true hnumber, ← hpairEq]
    exact int4Sub_eq_ok hsub

/-- The distance of two blocks of the main chain is the difference of their numbers. -/
theorem MainChain.length_after (hchain : MainChain blocks) {before after : List (ℕ × BlockRow)}
    {stable block : ℕ × BlockRow} (hblocks : blocks = before ++ stable :: after)
    (hblock : block ∈ blocks) : block.1 ≤ stable.1 + after.length := by
  obtain ⟨first, hnumbers⟩ := hchain.consecutive
  have hmem : block.1 ∈ List.range' first blocks.length := by
    rw [← hnumbers]
    exact List.mem_map_of_mem hblock
  have hstable : stable.1 = first + before.length := by
    have hget := congrArg (fun numbers => numbers[before.length]?) hnumbers
    simpa [hblocks, List.getElem?_range'] using hget
  rw [List.mem_range'_1, hblocks] at hmem
  simp only [List.length_append, List.length_cons] at hmem
  omega

theorem decodePreviousEpoch_eq_ok {stored : Option ℕ} (h : decodePreviousEpoch stored = .ok epoch) :
    epoch + 1 ∈ stored := by
  unfold decodePreviousEpoch at h
  split at h
  · rw [Except.ok.inj h]
    rfl
  · cases h

theorem permanent_of_getLatestStableEpoch {order : BlockOrder}
    (hchain : MainChain (numberedBlocks db))
    (hrange : ∀ block ∈ numberedBlocks db, block.1 + securityParameter.toNat < 2 ^ 32)
    (h : (getLatestStableEpoch order db securityParameter : Except (DataSourceError ε) _) =
      .ok (some epoch)) :
    Permanent (depth securityParameter (numberedBlocks db)) (numberedBlocks db) epoch := by
  unfold getLatestStableEpoch at h
  obtain ⟨rows, hrows, h⟩ := bind_eq_ok_iff.mp h
  cases hlast : (order.arrange rows).getLast? with
  | none => simp [hlast] at h
  | some row =>
      rw [hlast] at h
      obtain ⟨decoded, hdecode, hdecoded⟩ := bind_eq_ok_iff.mp h
      obtain rfl : decoded = epoch := Option.some.inj (Except.ok.inj hdecoded)
      have hrow : row ∈ rows := (order.perm rows).mem_iff.mp (List.mem_of_getLast? hlast)
      obtain ⟨⟨block, hblock⟩, number, hstable, hnumber⟩ := mem_stableBlockRows hrows hrow
      obtain ⟨before, after, hblocks⟩ := List.append_of_mem hstable
      have hdistance := hchain.length_after hblocks hblock
      have hsmall := hrange _ hstable
      refine ⟨before, (number, row.2), after, hblocks, ?_, decoded + 1, ?_, Nat.lt_succ_self _⟩
      · rw [bindBlockNumber_eq] at hnumber
        rw [depth, hblocks, List.length_append, List.length_cons]
        split_ifs at hnumber with hsign <;> simp only at hdistance hsmall <;> omega
      · exact decodePreviousEpoch_eq_ok (mapError_eq_ok_iff.mp hdecode)

/-! ## Caches -/

variable {L : Type → Type → Type} [LruCache L] {source : CandidateDataSourceCached ε}
  {caches : Caches L}

/-- The answer of a query whose epoch of data is permanent. -/
def Kept {α : Type} (deepest : ℕ) (db : Database) (epoch : McEpochNumber)
    (answer : Except (DataSourceError ε) α) (response : α) : Prop :=
  answer = .ok response ∧ ∃ data, (dataEpoch epoch : Except (DataSourceError ε) _) = .ok data ∧
    Permanent deepest (numberedBlocks db) data

/-- The remembered epoch and the epochs of data of all cached answers are permanent, and the
answers are those of the Db-Sync data source. -/
structure Caches.Sound (source : CandidateDataSourceCached ε) (deepest : ℕ) (db : Database)
    (caches : Caches L) : Prop where
  highest : ∀ epoch ∈ caches.highestSeenStableEpoch, Permanent deepest (numberedBlocks db) epoch
  candidates : LruCache.Forall caches.getCandidatesForEpochCache fun key =>
    Kept deepest db key.1 (source.inner.getCandidates db key.1 key.2)
  ariadneParameters : LruCache.Forall caches.getAriadneParametersForEpochCache fun key =>
    Kept deepest db key.1 (source.inner.getAriadneParameters db key.1 key.2.1 key.2.2)

theorem Caches.Sound.canUseCachingForRequest (h : caches.Sound source deepest db)
    (hchain : MainChain (numberedBlocks db))
    (hdeepest : depth source.securityParameter (numberedBlocks db) ≤ deepest)
    (hrange : ∀ block ∈ numberedBlocks db, block.1 + source.securityParameter.toNat < 2 ^ 32)
    (epoch : McEpochNumber) :
    (source.canUseCachingForRequest db epoch caches).2.Sound source deepest db ∧
      ((source.canUseCachingForRequest db epoch caches).1 = .ok true →
        ∃ data, (dataEpoch epoch : Except (DataSourceError ε) _) = .ok data ∧
          Permanent deepest (numberedBlocks db) data) := by
  unfold CandidateDataSourceCached.canUseCachingForRequest
  cases hdata : (dataEpoch epoch : Except (DataSourceError ε) McEpochNumber) with
  | error error => exact ⟨h, by simp⟩
  | ok data =>
      dsimp only
      split_ifs with hseen
      · refine ⟨h, fun _ => ⟨data, rfl, ?_⟩⟩
        obtain ⟨seen, hseen, hle⟩ := (Option.any_eq_true _ _).mp hseen
        exact (h.highest seen hseen).mono (of_decide_eq_true hle)
      · cases hstable : (getLatestStableEpoch source.order db source.securityParameter :
            Except (DataSourceError ε) _) with
        | error error => exact ⟨h, by simp⟩
        | ok stable =>
            cases stable with
            | none => exact ⟨h, by simp⟩
            | some stable =>
                have hpermanent :=
                  (permanent_of_getLatestStableEpoch hchain hrange hstable).deeper hdeepest
                refine ⟨⟨?_, h.candidates, h.ariadneParameters⟩, ?_⟩
                · intro seen hseen
                  rwa [← Option.some.inj hseen]
                · intro hle
                  exact ⟨data, rfl, hpermanent.mono (by simpa using hle)⟩

section WithCaching

variable {κ ν : Type} [DecidableEq κ] {cache : L κ ν} {epochOf : κ → McEpochNumber}
  {query : κ → Except (DataSourceError ε) ν}

theorem withCaching_fst
    (h : LruCache.Forall cache fun key => Kept deepest db (epochOf key) (query key)) (key : κ) :
    (withCaching cache key (query key)).1 = query key := by
  unfold withCaching
  cases hget : LruCache.get cache key with
  | mk found rest =>
      cases found with
      | some response => exact (LruCache.Forall.of_get h (by rw [hget])).1.symm
      | none => cases query key <;> rfl

theorem withCaching_snd
    (h : LruCache.Forall cache fun key => Kept deepest db (epochOf key) (query key)) (key : κ)
    (hkey : ∃ data, (dataEpoch (epochOf key) : Except (DataSourceError ε) _) = .ok data ∧
      Permanent deepest (numberedBlocks db) data) :
    LruCache.Forall (withCaching cache key (query key)).2 fun key =>
      Kept deepest db (epochOf key) (query key) := by
  have hrest := LruCache.Forall.get h key
  unfold withCaching
  cases hget : LruCache.get cache key with
  | mk found rest =>
      rw [hget] at hrest
      cases found with
      | some response => exact hrest
      | none =>
          cases hquery : query key with
          | error error => exact hrest
          | ok response => exact LruCache.Forall.put hrest ⟨hquery, hkey⟩

end WithCaching

/-! ## Calls -/

theorem answer_spec {α : Type} {canUseCaching : Except (DataSourceError ε) Bool × Caches L}
    {cached : Caches L → Except (DataSourceError ε) α × Caches L}
    {inner : Except (DataSourceError ε) α} (hsound : canUseCaching.2.Sound source deepest db)
    (hcached : canUseCaching.1 = .ok true → (cached canUseCaching.2).1 = inner ∧
      (cached canUseCaching.2).2.Sound source deepest db) :
    (∀ response, (answer canUseCaching cached inner).1 = .ok response → inner = .ok response) ∧
      (answer canUseCaching cached inner).2.Sound source deepest db := by
  obtain ⟨use, caches⟩ := canUseCaching
  cases use with
  | error error => exact ⟨by simp [answer], hsound⟩
  | ok use =>
      cases use with
      | false => exact ⟨fun _ hresponse => hresponse, hsound⟩
      | true =>
          obtain ⟨hanswer, hkept⟩ := hcached rfl
          exact ⟨fun _ hresponse => hanswer.symm.trans hresponse, hkept⟩

section Calls

variable (h : caches.Sound source deepest db) (hchain : MainChain (numberedBlocks db))
  (hdeepest : depth source.securityParameter (numberedBlocks db) ≤ deepest)
  (hrange : ∀ block ∈ numberedBlocks db, block.1 + source.securityParameter.toNat < 2 ^ 32)
  (epoch : McEpochNumber)

include h hchain hdeepest hrange

theorem Caches.Sound.getCandidates (address : MainchainAddress) :
    (∀ response, (source.getCandidates db epoch address caches).1 = .ok response →
        source.inner.getCandidates db epoch address = .ok response) ∧
      (source.getCandidates db epoch address caches).2.Sound source deepest db := by
  obtain ⟨hsound, huse⟩ := h.canUseCachingForRequest hchain hdeepest hrange epoch
  refine answer_spec hsound fun htrue => ⟨?_, hsound.highest, ?_, hsound.ariadneParameters⟩
  · exact withCaching_fst hsound.candidates (epoch, address)
  · exact withCaching_snd hsound.candidates (epoch, address) (huse htrue)

theorem Caches.Sound.getAriadneParameters (dParameterPolicy permissionedPolicy : PolicyId) :
    (∀ response,
        (source.getAriadneParameters db epoch dParameterPolicy permissionedPolicy caches).1 =
          .ok response →
        source.inner.getAriadneParameters db epoch dParameterPolicy permissionedPolicy =
          .ok response) ∧
      (source.getAriadneParameters db epoch dParameterPolicy permissionedPolicy caches).2.Sound
        source deepest db := by
  obtain ⟨hsound, huse⟩ := h.canUseCachingForRequest hchain hdeepest hrange epoch
  refine answer_spec hsound fun htrue => ⟨?_, hsound.highest, hsound.candidates, ?_⟩
  · exact withCaching_fst hsound.ariadneParameters (epoch, dParameterPolicy, permissionedPolicy)
  · exact withCaching_snd hsound.ariadneParameters (epoch, dParameterPolicy, permissionedPolicy)
      (huse htrue)

end Calls

/-! ## Changes of the main chain -/

section Change

variable {Recorded : Database → Prop} {db' : Database} (hchain : MainChain (numberedBlocks db))
  (hchain' : MainChain (numberedBlocks db'))
  (hkept : (numberedBlocks db).take deepest <+: numberedBlocks db') (hle : deepest ≤ deepest')

include hchain hchain' hkept hle

/-- An answer about permanent data stays the answer when the query is settled. -/
theorem Kept.replaced {α : Type} (query : Database → McEpochNumber → Except ε α) {response : α}
    (hquery : ∀ data, Ended (numberedBlocks db) data → Ended (numberedBlocks db') data →
      blocksUpTo (numberedBlocks db) data = blocksUpTo (numberedBlocks db') data →
      query db data = query db' data)
    (h : Kept deepest db epoch
      (getEpochOfDataStorage epoch >>= fun data => (query db data).mapError .query) response) :
    Kept deepest' db' epoch
      (getEpochOfDataStorage epoch >>= fun data => (query db' data).mapError .query) response := by
  obtain ⟨hanswer, data, hdata, hpermanent⟩ := h
  obtain ⟨hpermanent', hsame⟩ := hpermanent.replaced hchain hchain' hkept hle
  have hstorage : (getEpochOfDataStorage epoch : Except (DataSourceError ε) _) = .ok data := hdata
  rw [hstorage, ok_bind, hquery data hpermanent.ended hpermanent'.ended hsame] at hanswer
  refine ⟨?_, data, hdata, hpermanent'⟩
  rw [hstorage, ok_bind]
  exact hanswer

/-- Cached answers and the remembered epoch outlive a change of the main chain. -/
theorem Caches.Sound.replaced (h : caches.Sound source deepest db)
    (hsettled : source.inner.Settled Recorded) (hrecorded : Recorded db)
    (hrecorded' : Recorded db') : caches.Sound source deepest' db' := by
  refine ⟨?_, ?_, ?_⟩
  · intro epoch hepoch
    exact ((h.highest epoch hepoch).replaced hchain hchain' hkept hle).1
  · refine h.candidates.mono fun key response => Kept.replaced hchain hchain' hkept hle
      (fun db data => source.inner.candidates db data key.2) ?_
    intro data hended hended' hsame
    exact congrFun (hsettled.candidates db db' data hrecorded hrecorded' hended hended' hsame) _
  · refine h.ariadneParameters.mono fun key response => Kept.replaced hchain hchain' hkept hle
      (fun db data => source.inner.ariadneParameters db data key.2.1 key.2.2) ?_
    intro data hended hended' hsame
    exact congrFun₂ (hsettled.ariadneParameters db db' data hrecorded hrecorded' hended hended'
      hsame) _ _

end Change

/-! ## Runs -/

variable {Recorded : Database → Prop}

/-- What holds in every state that is reached. -/
structure State.Sound (Recorded : Database → Prop) (source : CandidateDataSourceCached ε)
    (s : State L) : Prop where
  recorded : Recorded s.db
  chain : MainChain (numberedBlocks s.db)
  deepest : depth source.securityParameter (numberedBlocks s.db) ≤ s.deepest
  caches : s.caches.Sound source s.deepest s.db

theorem State.Sound.step {s t : State L} {event : Event ε} (h : s.Sound Recorded source)
    (hsettled : source.inner.Settled Recorded)
    (hrange : BoundInRange source.securityParameter s) (hkept : KeepsDeepest s event)
    (hstep : (system Recorded source).Step s event t) :
    event.Transparent source.inner ∧ t.Sound Recorded source := by
  cases hstep with
  | change hrecorded hchain _ =>
      exact ⟨trivial, hrecorded, hchain, le_max_right _ _,
        h.caches.replaced h.chain hchain hkept (le_max_left _ _) hsettled h.recorded hrecorded⟩
  | candidates epoch address =>
      obtain ⟨hanswer, hcaches⟩ := h.caches.getCandidates h.chain h.deepest hrange epoch address
      exact ⟨hanswer, h.recorded, h.chain, h.deepest, hcaches⟩
  | ariadneParameters epoch dParameterPolicy permissionedPolicy =>
      obtain ⟨hanswer, hcaches⟩ := h.caches.getAriadneParameters h.chain h.deepest hrange epoch
        dParameterPolicy permissionedPolicy
      exact ⟨hanswer, h.recorded, h.chain, h.deepest, hcaches⟩

/-- While the main chain grows and is rolled back, every successful answer of the caching data
source is the answer of the Db-Sync data source at that moment, as long as no block is dropped that
was once the security parameter below the tip. -/
theorem candidatesCache_transparent (Recorded : Database → Prop)
    (source : CandidateDataSourceCached ε) (hsettled : source.inner.Settled Recorded)
    (trace : List (Event ε)) (s : State L)
    (run : ((system Recorded source).restrict fun s event =>
      BoundInRange source.securityParameter s ∧ KeepsDeepest s event).Run trace s) :
    ∀ event ∈ trace, event.Transparent source.inner := by
  refine (run.invariant (P := fun trace s => (∀ event ∈ trace, event.Transparent source.inner) ∧
    s.Sound Recorded source) ?_ ?_).1
  · rintro s ⟨hrecorded, hchain, hdeepest, size, positive, hcaches⟩
    refine ⟨by simp, hrecorded, hchain, hdeepest.ge, ?_⟩
    rw [hcaches]
    exact ⟨by simp [Caches.new], LruCache.forall_new _, LruCache.forall_new _⟩
  · rintro trace s event t ⟨htrace, hs⟩ ⟨⟨hrange, hkept⟩, hstep⟩
    obtain ⟨hevent, ht⟩ := hs.step hsettled hrange hkept hstep
    refine ⟨?_, ht⟩
    intro other hother
    cases List.mem_append.mp hother with
    | inl hearlier => exact htrace other hearlier
    | inr hlast =>
        rw [List.mem_singleton.mp hlast]
        exact hevent

/-- Block `n` has number `n` and the `n`-th epoch of the list. -/
def sampleChain (epochs : List ℕ) : Database where
  block := epochs.zipIdx.map fun (epoch, number) =>
    ⟨number, .filled 32 (.ofNat (16 * epoch + number)), some number, some epoch, some number, 0⟩
  tx := []
  txOut := []
  txIn := []
  maTxOut := []
  multiAsset := []
  datum := []

/-- The D-parameter is the one of the last block up to the epoch. -/
def sampleQueries : EpochQueries String where
  ariadneParameters db epoch _ _ :=
    match (blocksUpTo (numberedBlocks db) epoch).getLast? with
    | none => .error "Expected Data Not Found: DParameter"
    | some block => .ok ⟨⟨.ofNat block.2.id, 0⟩, none⟩
  candidates _ _ _ := .ok []

theorem sampleQueries_settled : sampleQueries.Settled fun _ => True where
  ariadneParameters db db' epoch _ _ _ _ hsame := by
    unfold sampleQueries
    simp only [hsame]
  candidates db db' epoch _ _ _ _ _ := rfl

def sampleSource (securityParameter : UInt32) : CandidateDataSourceCached String where
  inner := sampleQueries
  order := .stable _
  securityParameter := securityParameter

theorem boundInRange_sampleChain {epochs : List ℕ} (securityParameter : UInt32) (deepest : ℕ)
    (caches : Caches RecentlyUsed) (h : epochs.length + securityParameter.toNat ≤ 2 ^ 32) :
    BoundInRange securityParameter ⟨sampleChain epochs, deepest, caches⟩ := by
  rintro ⟨number, row⟩ hblock
  simp only [numberedBlocks, sampleChain, List.mem_filterMap, List.mem_map, Prod.exists,
    Option.map_eq_some_iff, Prod.mk.injEq] at hblock
  obtain ⟨_, ⟨epoch, index, hindex, rfl⟩, _, hnumber, rfl, rfl⟩ := hblock
  have hlt := (List.mem_zipIdx hindex).2.1
  rw [← Option.some.inj hnumber]
  simp only
  omega

/-- The D-parameter that is valid in epoch 4. -/
def sampleRequest (source : CandidateDataSourceCached String) (db : Database)
    (caches : Caches RecentlyUsed) :
    Except (DataSourceError String) AriadneParameters × Caches RecentlyUsed :=
  source.getAriadneParameters db 4 (.filled 28 1) (.filled 28 2) caches

def sampleCaches : Caches RecentlyUsed := .new 8 (by decide)

/-- The data source is asked, the main chain changes, and the same is asked again. -/
theorem exists_run_askedTwice (source : CandidateDataSourceCached String)
    (Allowed : State RecentlyUsed → Event String → Prop) (db db' : Database)
    (hchain : MainChain (numberedBlocks db)) (hchain' : MainChain (numberedBlocks db'))
    (hreplaced : Replaced source.securityParameter (numberedBlocks db) (numberedBlocks db'))
    (hbefore : ∀ caches epoch dParameterPolicy permissionedPolicy answer, Allowed
      ⟨db, depth source.securityParameter (numberedBlocks db), caches⟩
      (.ariadneParameters db epoch dParameterPolicy permissionedPolicy answer))
    (hchange : ∀ caches, Allowed
      ⟨db, depth source.securityParameter (numberedBlocks db), caches⟩ (.changed db'))
    (hafter : ∀ deepest caches epoch dParameterPolicy permissionedPolicy answer,
      Allowed ⟨db', deepest, caches⟩
        (.ariadneParameters db' epoch dParameterPolicy permissionedPolicy answer)) :
    ∃ trace s, ((system (fun _ => True) source).restrict Allowed).Run trace s ∧
      .ariadneParameters db' 4 (.filled 28 1) (.filled 28 2)
        (sampleRequest source db' (sampleRequest source db sampleCaches).2).1 ∈ trace := by
  have hstart : ((system (fun _ => True) source).restrict Allowed).Run []
      ⟨db, depth source.securityParameter (numberedBlocks db), sampleCaches⟩ :=
    .start ⟨trivial, hchain, rfl, 8, by decide, rfl⟩
  have hasked := hstart.step
    ⟨hbefore _ _ _ _ _, .ariadneParameters 4 (.filled 28 1) (.filled 28 2)⟩
  have hchanged := hasked.step ⟨hchange _, .change trivial hchain' hreplaced⟩
  have hagain := hchanged.step
    ⟨hafter _ _ _ _ _ _, .ariadneParameters 4 (.filled 28 1) (.filled 28 2)⟩
  exact ⟨_, _, hagain, List.mem_append_right _ (List.mem_singleton.mpr rfl)⟩

/-- An answer is cached, the newest block is replaced by two others, and the same request is
answered from the cache. -/
theorem candidatesCache_transparent_after_rollback :
    (∃ response, (sampleRequest (sampleSource 1) (sampleChain [1, 3, 4])
      sampleCaches).2.getAriadneParametersForEpochCache.entries =
        [((4, .filled 28 1, .filled 28 2), response)]) ∧
    ∃ (trace : List (Event String)) (s : State RecentlyUsed),
      ((system (fun _ => True) (sampleSource 1)).restrict fun s event =>
        BoundInRange 1 s ∧ KeepsDeepest s event).Run trace s ∧
      .ariadneParameters (sampleChain [1, 3, 3, 4]) 4 (.filled 28 1) (.filled 28 2)
        (.ok ⟨⟨0, 0⟩, none⟩) ∈ trace ∧
      ∀ event ∈ trace, event.Transparent sampleQueries := by
  have hkept : (numberedBlocks (sampleChain [1, 3, 4])).take 2 <+:
      numberedBlocks (sampleChain [1, 3, 3, 4]) := by decide
  obtain ⟨trace, s, hrun, hevent⟩ := exists_run_askedTwice (sampleSource 1)
    (fun s event => BoundInRange 1 s ∧ KeepsDeepest s event) (sampleChain [1, 3, 4])
    (sampleChain [1, 3, 3, 4]) ⟨⟨0, by decide⟩, by decide⟩ ⟨⟨0, by decide⟩, by decide⟩
    ⟨numberedBlocks (sampleChain [1, 3]), _, _, rfl, rfl, by decide⟩
    (fun caches _ _ _ _ => ⟨boundInRange_sampleChain 1 _ caches (by decide), trivial⟩)
    (fun caches => ⟨boundInRange_sampleChain 1 _ caches (by decide), hkept⟩)
    (fun deepest caches _ _ _ _ =>
      ⟨boundInRange_sampleChain 1 deepest caches (by decide), trivial⟩)
  exact ⟨⟨_, rfl⟩, trace, s, hrun, hevent,
    candidatesCache_transparent _ _ sampleQueries_settled _ _ hrun⟩

/-- A security parameter of 2 ^ 32 - 1 is bound as -1, so that the tip counts as stable: an
answer is cached although blocks of its epoch are still added. -/
theorem largest_parameter_caches_unstable_data :
    sampleQueries.Settled (fun _ => True) ∧
    ∃ (trace : List (Event String)) (s : State RecentlyUsed),
      ((system (fun _ => True) (sampleSource 4294967295)).restrict KeepsDeepest).Run trace s ∧
      ∃ event ∈ trace, ¬event.Transparent sampleQueries := by
  have hkept : (numberedBlocks (sampleChain [1, 3])).take 0 <+:
      numberedBlocks (sampleChain [1, 2, 3]) := by decide
  obtain ⟨trace, s, hrun, hevent⟩ := exists_run_askedTwice (sampleSource 4294967295)
    KeepsDeepest (sampleChain [1, 3]) (sampleChain [1, 2, 3])
    ⟨⟨0, by decide⟩, by decide⟩ ⟨⟨0, by decide⟩, by decide⟩
    ⟨numberedBlocks (sampleChain [1]), _, _, rfl, rfl, by decide⟩
    (fun _ _ _ _ _ => trivial) (fun _ => hkept) (fun _ _ _ _ _ _ => trivial)
  refine ⟨sampleQueries_settled, trace, s, hrun, _, hevent, ?_⟩
  intro htransparent
  exact absurd (htransparent ⟨⟨0, 0⟩, none⟩ rfl) (by decide)

end PartnerChains.Candidates
