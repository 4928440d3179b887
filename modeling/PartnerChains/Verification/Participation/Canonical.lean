import PartnerChains.Verification.Epochs.Times
import PartnerChains.Verification.Participation.Counting

/-!
# Participation data add up and are canonical

The entries are those of the groups of blocks. Sorting compares all fields, so neither the order of
the blocks nor the order in which hash maps are visited can be seen in the result.
-/

namespace PartnerChains.BlockParticipation

open Fallible

variable {BlockProducer Delegator ε : Type} {cfg : Config BlockProducer Delegator}
  {source : BlockParticipationDataSource ε}

/-! ## The order of entries -/

theorem DelegatorBlockParticipationData.rank_injective :
    Function.Injective (rank : DelegatorBlockParticipationData Delegator → _) := by
  rintro ⟨id, share⟩ ⟨id', share'⟩ h
  simpa [rank] using h

theorem BlockProducerParticipationData.rank_injective :
    Function.Injective
      (rank : BlockProducerParticipationData BlockProducer Delegator → _) := by
  rintro ⟨producer, count, total, delegators⟩ ⟨producer', count', total', delegators'⟩ h
  simp only [rank, toLex_inj, Prod.mk.injEq] at h
  obtain ⟨rfl, rfl, rfl, hdelegators⟩ := h
  rw [List.map_injective_iff.mpr DelegatorBlockParticipationData.rank_injective hdelegators]

/-! ## Entries of the visited groups -/

variable {epoch : McEpochNumber}

theorem productionBreakdownFor_eq_ok {producer : BlockProducer} {count : ℕ}
    {distribution : StakeDistribution}
    {entry : BlockProducerParticipationData BlockProducer Delegator}
    (h : (productionBreakdownFor cfg epoch producer count distribution :
      Except (InherentDataCreationError ε BlockProducer) _) = .ok entry) :
    entry.blockProducer = producer ∧ entry.blockCount = count := by
  unfold productionBreakdownFor at h
  split at h
  · cases h
    exact ⟨rfl, rfl⟩
  · split at h
    · cases h
    · cases h
      exact ⟨rfl, rfl⟩

theorem exists_productionBreakdownFor_iff {producer : BlockProducer} {count : ℕ}
    {distribution : StakeDistribution} :
    (∃ entry, (productionBreakdownFor cfg epoch producer count distribution :
      Except (InherentDataCreationError ε BlockProducer) _) = .ok entry) ↔
      ∀ pool, cfg.asCardanoSpo producer = some pool → (distribution.get? pool).isSome := by
  cases hpool : cfg.asCardanoSpo producer with
  | none => simp [productionBreakdownFor, hpool]
  | some pool =>
      cases hdelegation : distribution.get? pool <;>
        simp [productionBreakdownFor, hpool, hdelegation]

/-- An entry that belongs to a group with its count. -/
def EntryFor (visit : (McEpochNumber × BlockProducer) × ℕ)
    (entry : BlockProducerParticipationData BlockProducer Delegator) : Prop :=
  entry.blockProducer = visit.1.2 ∧ entry.blockCount = visit.2

variable {entries : List (BlockProducerParticipationData BlockProducer Delegator)}
  {visits : List ((McEpochNumber × BlockProducer) × ℕ)}

theorem map_eq_of_forall₂_entryFor (h : List.Forall₂ EntryFor visits entries) :
    entries.map (fun entry => (entry.blockProducer, entry.blockCount)) =
      visits.map fun visit => (visit.1.2, visit.2) := by
  induction h with
  | nil => rfl
  | cons hentry _ ih => rw [List.map_cons, List.map_cons, ih, hentry.1, hentry.2]

theorem map_blockCount_of_forall₂_entryFor (h : List.Forall₂ EntryFor visits entries) :
    entries.map (·.blockCount) = visits.map (·.2) := by
  have hmap := congrArg (List.map Prod.snd) (map_eq_of_forall₂_entryFor h)
  simpa [Function.comp_def] using hmap

variable [LinearOrder BlockProducer] {order : IterationOrder BlockProducer}
  {counts : EpochCounts BlockProducer}
  {summaries : List (List (BlockProducerParticipationData BlockProducer Delegator))}

theorem epochBreakdown_eq_ok_iff {producers : ProducerCounts BlockProducer} :
    epochBreakdown cfg order source (epoch, producers) = .ok entries ↔
      ∃ distribution, source epoch (((order.producers epoch producers).map (·.1)).filterMap
          cfg.asCardanoSpo) = .ok distribution ∧
        List.Forall₂ (fun produced entry =>
          (productionBreakdownFor cfg epoch produced.1 produced.2 distribution :
            Except (InherentDataCreationError ε BlockProducer) _) = .ok entry)
          (order.producers epoch producers) entries := by
  simp only [epochBreakdown, bind_eq_ok_iff, mapM_eq_ok_iff, fetchDelegations,
    mapError_eq_ok_iff]

/-- An epoch has its entries when the distribution has every pool of it. -/
theorem exists_epochBreakdown_iff {visit : McEpochNumber × ProducerCounts BlockProducer} :
    (∃ entries, epochBreakdown cfg order source visit = .ok entries) ↔
      ∃ distribution, source visit.1 (((order.producers visit.1 visit.2).map (·.1)).filterMap
          cfg.asCardanoSpo) = .ok distribution ∧
        ∀ produced ∈ order.producers visit.1 visit.2, ∀ pool,
          cfg.asCardanoSpo produced.1 = some pool → (distribution.get? pool).isSome := by
  obtain ⟨epoch, producers⟩ := visit
  simp only [epochBreakdown, bind_eq_ok_iff, fetchDelegations, mapError_eq_ok_iff]
  constructor
  · rintro ⟨entries, distribution, hfetch, hentries⟩
    refine ⟨distribution, hfetch, fun produced hproduced => ?_⟩
    exact exists_productionBreakdownFor_iff.mp (exists_ok_of_mem hentries hproduced)
  · rintro ⟨distribution, hfetch, hpools⟩
    obtain ⟨entries, hentries⟩ := exists_mapM_iff.mpr fun produced hmem =>
      exists_productionBreakdownFor_iff.mpr (hpools produced hmem)
    exact ⟨entries, distribution, hfetch, hentries⟩

theorem forall₂_entryFor
    (h : (order.epochs counts).mapM (epochBreakdown cfg order source) = .ok summaries) :
    List.Forall₂ EntryFor (visited order counts) summaries.flatten := by
  rw [mapM_eq_ok_iff] at h
  refine List.rel_flatten (List.forall₂_map_left_iff.mpr (h.imp ?_))
  rintro ⟨epoch, producers⟩ entries hentries
  obtain ⟨distribution, -, hbreakdown⟩ := epochBreakdown_eq_ok_iff.mp hentries
  exact List.forall₂_map_left_iff.mpr (hbreakdown.imp fun _ _ => productionBreakdownFor_eq_ok)

/-! ## The order of visits -/

/-- The answer of the data source does not depend on the order of the pools it is asked for. -/
def OrderIrrelevant (source : BlockParticipationDataSource ε) : Prop :=
  ∀ epoch pools pools', pools.Perm pools' → source epoch pools = source epoch pools'

theorem exists_epochBreakdown (hsource : OrderIrrelevant source)
    (order' : IterationOrder BlockProducer) {visit : McEpochNumber × ProducerCounts BlockProducer}
    (h : epochBreakdown cfg order source visit = .ok entries) :
    ∃ entries', epochBreakdown cfg order' source visit = .ok entries' ∧
      entries'.Perm entries := by
  obtain ⟨epoch, producers⟩ := visit
  obtain ⟨distribution, hfetch, hbreakdown⟩ := epochBreakdown_eq_ok_iff.mp h
  have hperm : (order'.producers epoch producers).Perm (order.producers epoch producers) :=
    (order'.producers_perm epoch producers).trans (order.producers_perm epoch producers).symm
  obtain ⟨entries', hbreakdown', hentries⟩ := List.perm_comp_forall₂ hperm hbreakdown
  refine ⟨entries', epochBreakdown_eq_ok_iff.mpr ⟨distribution, ?_, hbreakdown'⟩, hentries⟩
  rw [hsource epoch _ _ ((hperm.map _).filterMap _)]
  exact hfetch

theorem exists_mapM_epochBreakdown (hsource : OrderIrrelevant source)
    (order' : IterationOrder BlockProducer)
    {visits : List (McEpochNumber × ProducerCounts BlockProducer)}
    (h : List.Forall₂ (fun visit entries => epochBreakdown cfg order source visit = .ok entries)
      visits summaries) :
    ∃ summaries', List.Forall₂
        (fun visit entries => epochBreakdown cfg order' source visit = .ok entries)
        visits summaries' ∧ List.Forall₂ List.Perm summaries' summaries := by
  induction h with
  | nil => exact ⟨[], .nil, .nil⟩
  | cons hvisit _ ih =>
      obtain ⟨entries', hentries', hperm⟩ := exists_epochBreakdown hsource order' hvisit
      obtain ⟨rest, hrest, hrestPerm⟩ := ih
      exact ⟨entries' :: rest, .cons hentries' hrest, .cons hperm hrestPerm⟩

theorem exists_summaries (hsource : OrderIrrelevant source)
    (order' : IterationOrder BlockProducer)
    (h : (order.epochs counts).mapM (epochBreakdown cfg order source) = .ok summaries) :
    ∃ summaries', (order'.epochs counts).mapM (epochBreakdown cfg order' source) =
        .ok summaries' ∧ summaries'.flatten.Perm summaries.flatten := by
  rw [mapM_eq_ok_iff] at h
  have hperm : (order'.epochs counts).Perm (order.epochs counts) :=
    (order'.epochs_perm counts).trans (order.epochs_perm counts).symm
  obtain ⟨moved, hmoved, hmovedPerm⟩ := List.perm_comp_forall₂ hperm h
  obtain ⟨summaries', hsummaries', hflatten⟩ :=
    exists_mapM_epochBreakdown hsource order' hmoved
  refine ⟨summaries', mapM_eq_ok_iff.mpr hsummaries', ?_⟩
  exact (List.Perm.flatten_congr hflatten).trans hmovedPerm.flatten

/-! ## Sums -/

/-- What is asked of the numbers of blocks: they add up to all blocks and to the blocks of each
producer, and each entry has the blocks of one epoch. -/
structure AddsUp (cfg : Config BlockProducer Delegator) (blocks : List (Slot × BlockProducer))
    (data : BlockProductionData BlockProducer Delegator) : Prop where
  total : (data.producerParticipation.map (·.blockCount)).sum = blocks.length
  perProducer : ∀ producer,
    ((data.producerParticipation.filter (·.blockProducer = producer)).map (·.blockCount)).sum =
      blocks.countP (·.2 = producer)
  oneEpoch : ∃ groups : List (McEpochNumber × BlockProducer), groups.Nodup ∧
    List.Forall₂ (fun group entry => entry.blockProducer = group.2 ∧
      entry.blockCount = blocksIn cfg blocks group ∧ 0 < entry.blockCount) groups
      data.producerParticipation

variable {data : BlockProductionData BlockProducer Delegator}

theorem addsUp_of_visits {blocks : List (Slot × BlockProducer)}
    (hsome : ∀ block ∈ blocks, (group? cfg block).isSome)
    (hvisits : visits.Perm ((blocks.filterMap (group? cfg)).dedup.map fun group =>
      (group, (blocks.filterMap (group? cfg)).count group)))
    (hentries : List.Forall₂ EntryFor visits data.producerParticipation) :
    AddsUp cfg blocks data where
  total := by
    rw [map_blockCount_of_forall₂_entryFor hentries, (hvisits.map _).sum_eq, List.map_map,
      ← length_groups hsome]
    simpa [Function.comp_def] using
      sum_count_dedup (fun _ => true) (blocks.filterMap (group? cfg))
  perProducer producer := by
    have hcounts : (data.producerParticipation.filter (·.blockProducer = producer)).map
        (·.blockCount) = (visits.filter (·.1.2 = producer)).map (·.2) := by
      have hmap := congrArg (fun pairs => (pairs.filter (·.1 = producer)).map Prod.snd)
        (map_eq_of_forall₂_entryFor hentries)
      simpa [List.filter_map, Function.comp_def] using hmap
    rw [hcounts, ((hvisits.filter _).map _).sum_eq, List.filter_map, List.map_map,
      ← countP_groups hsome]
    exact sum_count_dedup (·.2 = producer) (blocks.filterMap (group? cfg))
  oneEpoch := by
    refine ⟨visits.map (·.1), ?_, List.forall₂_map_left_iff.mpr ?_⟩
    · rw [(hvisits.map _).nodup_iff, List.map_map]
      simpa [Function.comp_def] using (blocks.filterMap (group? cfg)).nodup_dedup
    · have hcount : ∀ visit ∈ visits, visit.2 = blocksIn cfg blocks visit.1 ∧ 0 < visit.2 := by
        intro visit hvisit
        obtain ⟨group, hgroup, rfl⟩ := List.mem_map.mp (hvisits.mem_iff.mp hvisit)
        exact ⟨count_groups blocks group, List.count_pos_iff.mpr (List.mem_dedup.mp hgroup)⟩
      refine ((List.forall₂_and_left _ _).mpr ⟨hcount, hentries⟩).imp ?_
      rintro visit entry ⟨⟨hblocks, hpos⟩, hproducer, hentry⟩
      exact ⟨hproducer, hentry.trans hblocks, hentry ▸ hpos⟩

/-! ## Released data -/

variable [LinearOrder Delegator]

theorem sortDelegators_congr {entries entries' : List (BlockProducerParticipationData
      BlockProducer Delegator)} (h : entries'.Perm entries) (upToSlot : Slot) :
    BlockProductionData.new upToSlot entries' = BlockProductionData.new upToSlot entries := by
  rw [BlockProductionData.new, BlockProductionData.new, StableOrder.sortByKey_eq_of_perm
    BlockProducerParticipationData.rank_injective (h.map _)]

variable {slot : Slot} {target : Bytes 8}

theorem new_eq_active_iff {api : Api BlockProducer} :
    BlockParticipationInherentDataProvider.new cfg order source (some api) slot =
        .ok (.active target data) ↔
      ∃ upToSlot counts summaries, api.shouldReleaseData slot = some upToSlot ∧
        (countBlocksByEpochAndProducer cfg (api.blocksProducedUpToSlot upToSlot) :
          Except (InherentDataCreationError ε BlockProducer) _) = .ok counts ∧
        (order.epochs counts).mapM (epochBreakdown cfg order source) = .ok summaries ∧
        api.targetInherentId = target ∧
        BlockProductionData.new upToSlot summaries.flatten = data := by
  cases hrelease : api.shouldReleaseData slot with
  | none => simp [BlockParticipationInherentDataProvider.new, hrelease]
  | some upToSlot =>
      simp [BlockParticipationInherentDataProvider.new, hrelease, bind_eq_ok_iff]

/-- The same answers, with the blocks in any order. -/
structure Api.SameUpToOrder (api api' : Api BlockProducer) : Prop where
  release : ∀ slot, api'.shouldReleaseData slot = api.shouldReleaseData slot
  blocks : ∀ slot, (api.blocksProducedUpToSlot slot).Perm (api'.blocksProducedUpToSlot slot)
  target : api'.targetInherentId = api.targetInherentId

/-- Neither order is seen in what is released. -/
theorem new_canonical (hsource : OrderIrrelevant source) (order' : IterationOrder BlockProducer)
    {api api' : Api BlockProducer} (hapi : api.SameUpToOrder api')
    (h : BlockParticipationInherentDataProvider.new cfg order source (some api) slot =
      .ok (.active target data)) :
    BlockParticipationInherentDataProvider.new cfg order' source (some api') slot =
      .ok (.active target data) := by
  obtain ⟨upToSlot, counts, summaries, hrelease, hcounts, hsummaries, rfl, rfl⟩ :=
    new_eq_active_iff.mp h
  obtain ⟨summaries', hsummaries', hperm⟩ := exists_summaries hsource order' hsummaries
  exact new_eq_active_iff.mpr ⟨upToSlot, counts, summaries', (hapi.release slot).trans hrelease,
    countBlocksByEpochAndProducer_perm (hapi.blocks upToSlot) hcounts, hsummaries', hapi.target,
    sortDelegators_congr hperm upToSlot⟩

theorem exists_groups {upToSlot : Slot} {groups : List (McEpochNumber × BlockProducer)}
    (htally : Tallied groups counts)
    (hsummaries : (order.epochs counts).mapM (epochBreakdown cfg order source) =
      .ok summaries) :
    ∃ visits, visits.Perm (groups.dedup.map fun group => (group, groups.count group % 2 ^ 32)) ∧
      List.Forall₂ EntryFor visits
        (BlockProductionData.new upToSlot summaries.flatten).producerParticipation := by
  have hentries : List.Forall₂ EntryFor (visited order counts)
      (summaries.flatten.map BlockProducerParticipationData.sortDelegators) :=
    List.forall₂_map_right_iff.mpr (forall₂_entryFor hsummaries)
  have hsorted : (BlockProductionData.new upToSlot summaries.flatten).producerParticipation.Perm
      (summaries.flatten.map BlockProducerParticipationData.sortDelegators) :=
    StableOrder.sortByKey_perm _
  obtain ⟨visits, hvisits, hperm⟩ := List.perm_comp_forall₂ hsorted hentries.flip
  exact ⟨visits, hperm.trans (htally.visited_perm order), hvisits.flip⟩

/-- The released numbers are those of the blocks while no group outgrows its counter. -/
theorem addsUp_of_new {api : Api BlockProducer}
    (h : BlockParticipationInherentDataProvider.new cfg order source (some api) slot =
      .ok (.active target data))
    (hcounts : cfg.overflowChecks = true ∨
      ∀ group, blocksIn cfg (api.blocksProducedUpToSlot data.upToSlot) group < 2 ^ 32) :
    AddsUp cfg (api.blocksProducedUpToSlot data.upToSlot) data := by
  obtain ⟨upToSlot, counts, summaries, -, hcounted, hsummaries, -, rfl⟩ :=
    new_eq_active_iff.mp h
  obtain ⟨hsome, htally, hchecked⟩ := countBlocksByEpochAndProducer_eq_ok hcounted
  obtain ⟨visits, hvisits, hentries⟩ := exists_groups htally hsummaries
  have hsmall : ∀ group, ((api.blocksProducedUpToSlot upToSlot).filterMap (group? cfg)).count
      group < 2 ^ 32 := by
    rcases hcounts with hchecks | hblocks
    · exact hchecked hchecks
    · intro group
      rw [count_groups]
      exact hblocks group
  change AddsUp cfg (api.blocksProducedUpToSlot upToSlot) _
  refine addsUp_of_visits hsome ?_ hentries
  simpa only [Nat.mod_eq_of_lt (hsmall _)] using hvisits

/-- Numbers add up, and all orders give the same data. -/
theorem participation_data_add_up (hsource : OrderIrrelevant source)
    (order' : IterationOrder BlockProducer) {api api' : Api BlockProducer}
    (hapi : api.SameUpToOrder api') {slot : Slot} {target : Bytes 8}
    {data : BlockProductionData BlockProducer Delegator}
    (hnew : BlockParticipationInherentDataProvider.new cfg order source (some api) slot =
      .ok (.active target data)) :
    ((cfg.overflowChecks = true ∨
        ∀ group, blocksIn cfg (api.blocksProducedUpToSlot data.upToSlot) group < 2 ^ 32) →
      AddsUp cfg (api.blocksProducedUpToSlot data.upToSlot) data) ∧
    BlockParticipationInherentDataProvider.new cfg order' source (some api') slot =
      .ok (.active target data) :=
  ⟨addsUp_of_new hnew, new_canonical hsource order' hapi hnew⟩

/-- Slots of a second in epochs of a hundred seconds, and only permissioned producers. -/
private def permissionedOnly (overflowChecks : Bool) : Config ℕ ℕ where
  overflowChecks
  mcEpochConfig := ⟨100000, 1000, 0, 100, 0⟩
  slotDuration := 1000
  asCardanoSpo _ := none
  fromDelegatorKey _ := 0

private def noStake : BlockParticipationDataSource String := fun _ _ => .ok .empty

private def releaseAll (blocks : List (Slot × ℕ)) : Api ℕ where
  shouldReleaseData slot := some slot
  blocksProducedUpToSlot _ := blocks
  targetInherentId := ⟨List.replicate 8 0, rfl⟩

private theorem releaseAll_sameUpToOrder {blocks blocks' : List (Slot × ℕ)}
    (h : blocks.Perm blocks') : (releaseAll blocks).SameUpToOrder (releaseAll blocks') :=
  ⟨fun _ => rfl, fun _ => h, rfl⟩

theorem participation_data_add_up_two_epochs :
    let blocks := [(50, 1), (150, 0), (60, 0), (70, 1)]
    let data : BlockProductionData ℕ ℕ :=
      ⟨200, [⟨0, 1, 0, []⟩, ⟨0, 1, 0, []⟩, ⟨1, 2, 0, []⟩]⟩
    AddsUp (permissionedOnly true) blocks data ∧
      BlockParticipationInherentDataProvider.new (permissionedOnly true) .ascending noStake
        (some (releaseAll blocks.reverse)) 200 =
          .ok (.active (releaseAll blocks).targetInherentId data) := by
  intro blocks data
  have hnew : BlockParticipationInherentDataProvider.new (permissionedOnly true) .ascending
      noStake (some (releaseAll blocks)) 200 =
        .ok (.active (releaseAll blocks).targetInherentId data) := by
    rfl
  have hall := participation_data_add_up (fun _ _ _ _ => rfl) .ascending
    (releaseAll_sameUpToOrder blocks.reverse_perm.symm) hnew
  exact ⟨hall.1 (.inl rfl), hall.2⟩

/-- Epochs of 2^43 ms, and no overflow checks. -/
private def longEpochs : Config ℕ ℕ :=
  { permissionedOnly false with mcEpochConfig := ⟨2 ^ 43, 1000, 0, 100, 0⟩ }

open AuthoritySelection in
private theorem group?_longEpochs {slot : ℕ} (hslot : slot < 2 ^ 32) :
    group? longEpochs (slot, 1) = some (98, 1) := by
  have htime : slot * 1000 < 2 ^ 43 := by omega
  have hepoch : timestampToMainchainEpoch longEpochs.mcEpochConfig (slot * 1000) = .ok 100 :=
    timestampToMainchainEpoch_eq_ok_iff.mpr ⟨0, epochsPassed_eq_ok_iff.mpr
      ⟨Nat.zero_le _, by decide, Nat.div_eq_of_lt htime, by decide⟩, rfl⟩
  have hshort : (slot, 1).1 * longEpochs.slotDuration.toNat < 2 ^ 64 := htime.trans (by decide)
  rw [group?, dataEpoch?, if_pos hshort]
  exact congrArg (fun epoch : Except _ _ => Option.map _ (epoch.toOption.bind _)) hepoch

/-- A block of one producer in each of the first slots. -/
private def everySlot (n : ℕ) : List (Slot × ℕ) := (List.range n).map fun slot => (slot, 1)

private theorem group?_of_mem_everySlot {n : ℕ} (hn : n ≤ 2 ^ 32) {block : Slot × ℕ}
    (hblock : block ∈ everySlot n) : group? longEpochs block = some (98, 1) := by
  obtain ⟨slot, hslot, rfl⟩ := List.mem_map.mp hblock
  exact group?_longEpochs ((List.mem_range.mp hslot).trans_le hn)

private theorem sum_releaseAll_everySlot {n : ℕ} (hpos : n ≠ 0) (hn : n ≤ 2 ^ 32) : ∃ data,
    BlockParticipationInherentDataProvider.new longEpochs .ascending noStake
      (some (releaseAll (everySlot n))) (2 ^ 32) =
        .ok (.active (releaseAll (everySlot n)).targetInherentId data) ∧
    (data.producerParticipation.map (·.blockCount)).sum = n % 2 ^ 32 := by
  have hblocks : ∀ block ∈ everySlot n, (group? longEpochs block).isSome :=
    fun block hblock => (group?_of_mem_everySlot hn hblock).symm ▸ rfl
  have hgroups : (everySlot n).filterMap (group? longEpochs) =
      List.replicate n (98, 1) := by
    refine List.eq_replicate_iff.mpr ⟨?_, fun group hgroup => ?_⟩
    · rw [length_groups hblocks, everySlot, List.length_map, List.length_range]
    · obtain ⟨block, hblock, hgroup⟩ := List.mem_filterMap.mp hgroup
      exact Option.some.inj (hgroup.symm.trans (group?_of_mem_everySlot hn hblock))
  obtain ⟨counts, hcounts⟩ : ∃ counts,
      (countBlocksByEpochAndProducer longEpochs (everySlot n) :
        Except (InherentDataCreationError String ℕ) _) = .ok counts :=
    exists_countBlocksByEpochAndProducer hblocks (by simp [longEpochs, permissionedOnly])
  obtain ⟨summaries, hsummaries⟩ : ∃ summaries, (IterationOrder.ascending.epochs counts).mapM
      (epochBreakdown longEpochs .ascending noStake) = .ok summaries :=
    exists_mapM_iff.mpr fun _ _ => exists_epochBreakdown_iff.mpr
      ⟨.empty, rfl, by simp [longEpochs, permissionedOnly]⟩
  obtain ⟨-, htally, -⟩ := countBlocksByEpochAndProducer_eq_ok hcounts
  rw [hgroups] at htally
  obtain ⟨visits, hvisits, hentries⟩ := exists_groups htally hsummaries
  refine ⟨.new (2 ^ 32) summaries.flatten, new_eq_active_iff.mpr
    ⟨2 ^ 32, counts, summaries, rfl, hcounts, hsummaries, rfl, rfl⟩, ?_⟩
  rw [List.replicate_dedup hpos, List.map_singleton, List.perm_singleton,
    List.count_replicate_self] at hvisits
  rw [map_blockCount_of_forall₂_entryFor hentries, hvisits]
  exact List.sum_singleton

/-- A counter of 32 bits starts again. -/
theorem block_count_wraps : ∃ blocks data,
    (blocks.map Prod.fst).Nodup ∧
    BlockParticipationInherentDataProvider.new longEpochs .ascending noStake
      (some (releaseAll blocks)) (2 ^ 32) =
        .ok (.active (releaseAll blocks).targetInherentId data) ∧
    (data.producerParticipation.map (·.blockCount)).sum ≠ blocks.length := by
  obtain ⟨data, hnew, hsum⟩ := sum_releaseAll_everySlot (n := 2 ^ 32) (by decide) le_rfl
  refine ⟨_, data, ?_, hnew, ?_⟩
  · rw [everySlot, List.map_map]
    exact (List.map_id _).symm ▸ List.nodup_range
  · rw [hsum, everySlot, List.length_map, List.length_range]
    decide

end PartnerChains.BlockParticipation
