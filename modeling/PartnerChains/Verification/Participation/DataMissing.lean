import PartnerChains.Model.ParticipationChain
import PartnerChains.Verification.Participation.Canonical
import PartnerChains.Verification.ProductionLog.Counting

/-!
# Stake that was there at the selection is missing at the payment

A pool is selected with its stake in the data epoch of the epoch it is to serve, and paid with its
stake in the data epoch of the slot of each block. A committee also serves slots of other epochs:
the first block of the next epoch, and all blocks until a committee that was selected takes over.
-/

namespace PartnerChains.BlockParticipation

open Fallible

variable {BlockProducer Delegator ε : Type} {cfg : Config BlockProducer Delegator}
  {source : BlockParticipationDataSource ε}

/-! ## Where the error comes from -/

variable {epoch : McEpochNumber} {producer : BlockProducer}

theorem productionBreakdownFor_eq_error {count : ℕ} {distribution : StakeDistribution}
    {error : InherentDataCreationError ε BlockProducer}
    (h : productionBreakdownFor cfg epoch producer count distribution = .error error) :
    error = .dataMissing epoch producer ∧
      ∃ pool, cfg.asCardanoSpo producer = some pool ∧ distribution.get? pool = none := by
  unfold productionBreakdownFor at h
  split at h
  · cases h
  · rename_i pool hpool
    split at h
    · rename_i hnone
      exact ⟨(Except.error.inj h).symm, pool, hpool, hnone⟩
    · cases h

theorem dataMcEpochForSlot_ne_dataMissing {slot : Slot} :
    (dataMcEpochForSlot cfg slot : Except (InherentDataCreationError ε BlockProducer) _) ≠
      .error (.dataMissing epoch producer) := by
  intro h
  rw [dataMcEpochForSlot] at h
  split_ifs at h
  · split at h
    · cases h
    · rename_i mcEpoch _
      cases hoffset : Candidates.offsetDataEpoch mcEpoch <;> rw [hoffset] at h <;> cases h
  · cases h

variable [LinearOrder BlockProducer] {order : IterationOrder BlockProducer}
variable {block : Slot × BlockProducer}

theorem countBlock_ne_dataMissing {counts : EpochCounts BlockProducer} :
    (countBlock cfg counts block : Except (InherentDataCreationError ε BlockProducer) _) ≠
      .error (.dataMissing epoch producer) := by
  intro h
  rw [countBlock] at h
  cases hepoch : (dataMcEpochForSlot cfg block.1 :
      Except (InherentDataCreationError ε BlockProducer) McEpochNumber) with
  | error error =>
      rw [hepoch] at h
      exact dataMcEpochForSlot_ne_dataMissing (hepoch.trans (congrArg _ (Except.error.inj h)))
  | ok mcEpoch =>
      simp only [hepoch, ok_bind] at h
      cases hcount : Checked.addWith cfg.overflowChecks 32
          ((((counts.get? mcEpoch).getD .empty).get? block.2).getD 0) 1 <;>
        rw [hcount] at h <;> cases h

variable {blocks : List (Slot × BlockProducer)}

theorem countBlocksByEpochAndProducer_ne_dataMissing :
    (countBlocksByEpochAndProducer cfg blocks :
      Except (InherentDataCreationError ε BlockProducer) _) ≠
        .error (.dataMissing epoch producer) := by
  rw [countBlocksByEpochAndProducer]
  generalize (OrderedMap.empty : EpochCounts BlockProducer) = counts
  induction blocks generalizing counts with
  | nil =>
      intro h
      cases h
  | cons block blocks ih =>
      intro h
      rw [List.foldlM_cons] at h
      cases hblock : (countBlock cfg counts block :
          Except (InherentDataCreationError ε BlockProducer) _) with
      | error error =>
          rw [hblock] at h
          exact countBlock_ne_dataMissing (hblock.trans (congrArg _ (Except.error.inj h)))
      | ok counts' =>
          rw [hblock] at h
          exact ih counts' h

variable {visit : McEpochNumber × ProducerCounts BlockProducer}

theorem epochBreakdown_eq_error {distribution : StakeDistribution}
    (hfetch : source visit.1 (((order.producers visit.1 visit.2).map (·.1)).filterMap
      cfg.asCardanoSpo) = .ok distribution)
    {error : InherentDataCreationError ε BlockProducer}
    (h : epochBreakdown cfg order source visit = .error error) :
    ∃ produced ∈ order.producers visit.1 visit.2, error = .dataMissing visit.1 produced.1 ∧
      ∃ pool, cfg.asCardanoSpo produced.1 = some pool ∧ distribution.get? pool = none := by
  simp only [epochBreakdown, fetchDelegations, hfetch, mapError_ok, ok_bind] at h
  obtain ⟨produced, hproduced, herror⟩ := exists_of_mapM_eq_error h
  exact ⟨produced, hproduced, productionBreakdownFor_eq_error herror⟩

/-! ## The groups of the counts -/

theorem exists_block_of_mem_producers {counts : EpochCounts BlockProducer}
    (htally : Tallied (blocks.filterMap (group? cfg)) counts) (hvisit : visit ∈ order.epochs counts)
    {produced : BlockProducer × ℕ} (hproduced : produced ∈ order.producers visit.1 visit.2) :
    ∃ block ∈ blocks, dataEpoch? cfg block.1 = some visit.1 ∧ block.2 = produced.1 := by
  have hvisited : ((visit.1, produced.1), produced.2) ∈ visited order counts :=
    List.mem_flatMap.mpr ⟨visit, hvisit, List.mem_map.mpr ⟨produced, hproduced, rfl⟩⟩
  have hmem : (visit.1, produced.1) ∈ blocks.filterMap (group? cfg) := by
    have hcount := mem_visited.mp hvisited
    rw [htally.count] at hcount
    split_ifs at hcount with hmem
    exact hmem
  obtain ⟨block, hblock, hgroup⟩ := List.mem_filterMap.mp hmem
  obtain ⟨epoch, hepoch, heq⟩ := Option.map_eq_some_iff.mp hgroup
  obtain ⟨rfl, hproducer⟩ := Prod.mk.inj heq
  exact ⟨block, hblock, hepoch, hproducer⟩

theorem exists_mem_producers_of_block {counts : EpochCounts BlockProducer}
    (htally : Tallied (blocks.filterMap (group? cfg)) counts) (order : IterationOrder BlockProducer)
    (hblock : block ∈ blocks) (hepoch : dataEpoch? cfg block.1 = some epoch) :
    ∃ visit ∈ order.epochs counts, visit.1 = epoch ∧
      ∃ produced ∈ order.producers visit.1 visit.2, produced.1 = block.2 := by
  have hgroup : group? cfg block = some (epoch, block.2) := by
    rw [group?, hepoch]
    rfl
  have hcount := htally.count (epoch, block.2)
  rw [if_pos (List.mem_filterMap.mpr ⟨block, hblock, hgroup⟩), ← mem_visited] at hcount
  obtain ⟨visit, hvisit, hmem⟩ := List.mem_flatMap.mp hcount
  obtain ⟨produced, hproduced, heq⟩ := List.mem_map.mp hmem
  obtain ⟨hpair, -⟩ := Prod.mk.inj heq
  obtain ⟨hvisited, hproducer⟩ := Prod.mk.inj hpair
  exact ⟨visit, hvisit, hvisited, produced, hproduced, hproducer⟩

/-! ## Which answers lead to the error -/

/-- The data source has an entry for a pool that is asked for exactly when the pool has stake in
the epoch. -/
def Answers (source : BlockParticipationDataSource ε)
    (hasStake : McEpochNumber → MainchainKeyHash → Prop) : Prop :=
  ∀ epoch pools distribution, source epoch pools = .ok distribution →
    ∀ pool, (distribution.get? pool).isSome ↔ pool ∈ pools ∧ hasStake epoch pool

theorem fetched_of_dataMissing
    (h : epochBreakdown cfg order source visit = .error (.dataMissing epoch producer)) :
    ∃ distribution, source visit.1 (((order.producers visit.1 visit.2).map (·.1)).filterMap
      cfg.asCardanoSpo) = .ok distribution := by
  cases hfetch : source visit.1 (((order.producers visit.1 visit.2).map (·.1)).filterMap
      cfg.asCardanoSpo) with
  | error error =>
      rw [epochBreakdown, fetchDelegations, hfetch] at h
      cases h
  | ok distribution => exact ⟨distribution, rfl⟩

variable [LinearOrder Delegator] {api : Api BlockProducer} {slot upToSlot : Slot}
  {counts : EpochCounts BlockProducer}
  {hasStake : McEpochNumber → MainchainKeyHash → Prop}

theorem new_of_counts (hrelease : api.shouldReleaseData slot = some upToSlot)
    (hcounts : (countBlocksByEpochAndProducer cfg (api.blocksProducedUpToSlot upToSlot) :
      Except (InherentDataCreationError ε BlockProducer) _) = .ok counts) :
    (BlockParticipationInherentDataProvider.new cfg order source (some api) slot :
      Except _ (BlockParticipationInherentDataProvider BlockProducer Delegator)) =
        ((order.epochs counts).mapM (epochBreakdown cfg order source)).map fun summaries =>
          .active api.targetInherentId (.new upToSlot summaries.flatten) := by
  simp only [BlockParticipationInherentDataProvider.new, hrelease, hcounts, ok_bind]
  cases (order.epochs counts).mapM (epochBreakdown cfg order source) <;> rfl

theorem counted_of_dataMissing
    (h : (BlockParticipationInherentDataProvider.new cfg order source (some api) slot :
      Except _ (BlockParticipationInherentDataProvider BlockProducer Delegator)) =
        .error (.dataMissing epoch producer)) :
    ∃ upToSlot counts, api.shouldReleaseData slot = some upToSlot ∧
      (countBlocksByEpochAndProducer cfg (api.blocksProducedUpToSlot upToSlot) :
        Except (InherentDataCreationError ε BlockProducer) _) = .ok counts := by
  rw [BlockParticipationInherentDataProvider.new] at h
  split at h
  · cases h
  · rename_i upToSlot hrelease
    cases hcounts : (countBlocksByEpochAndProducer cfg (api.blocksProducedUpToSlot upToSlot) :
        Except (InherentDataCreationError ε BlockProducer) _) with
    | error error =>
        rw [hcounts] at h
        exact absurd (hcounts.trans (congrArg _ (Except.error.inj h)))
          countBlocksByEpochAndProducer_ne_dataMissing
    | ok counts => exact ⟨upToSlot, counts, hrelease, hcounts⟩

/-- The producer that is missing has a block in the epoch, and its pool has no stake in it. -/
theorem exists_of_new_eq_dataMissing (hsource : Answers source hasStake)
    (hrelease : api.shouldReleaseData slot = some upToSlot)
    (hcounts : (countBlocksByEpochAndProducer cfg (api.blocksProducedUpToSlot upToSlot) :
      Except (InherentDataCreationError ε BlockProducer) _) = .ok counts)
    (h : (BlockParticipationInherentDataProvider.new cfg order source (some api) slot :
      Except _ (BlockParticipationInherentDataProvider BlockProducer Delegator)) =
        .error (.dataMissing epoch producer)) :
    ∃ block ∈ api.blocksProducedUpToSlot upToSlot, ∃ pool,
      dataEpoch? cfg block.1 = some epoch ∧ cfg.asCardanoSpo block.2 = some pool ∧
      ¬ hasStake epoch pool := by
  obtain ⟨-, htally, -⟩ := countBlocksByEpochAndProducer_eq_ok hcounts
  rw [new_of_counts hrelease hcounts] at h
  cases hsummaries : (order.epochs counts).mapM (epochBreakdown cfg order source) with
  | ok summaries =>
      rw [hsummaries] at h
      cases h
  | error error =>
      rw [hsummaries] at h
      obtain rfl := Except.error.inj h
      obtain ⟨visit, hvisit, hbreakdown⟩ := exists_of_mapM_eq_error hsummaries
      obtain ⟨distribution, hfetch⟩ := fetched_of_dataMissing hbreakdown
      obtain ⟨produced, hproduced, herror, pool, hpool, hnone⟩ :=
        epochBreakdown_eq_error hfetch hbreakdown
      obtain ⟨rfl, rfl⟩ := InherentDataCreationError.dataMissing.inj herror
      obtain ⟨block, hblock, hepoch, hproducer⟩ :=
        exists_block_of_mem_producers htally hvisit hproduced
      refine ⟨block, hblock, pool, hepoch, hproducer ▸ hpool, fun hstake => ?_⟩
      have hasked : pool ∈ ((order.producers visit.1 visit.2).map (·.1)).filterMap
          cfg.asCardanoSpo :=
        List.mem_filterMap.mpr ⟨produced.1, List.mem_map_of_mem hproduced, hpool⟩
      have hentry := (hsource _ _ _ hfetch pool).mpr ⟨hasked, hstake⟩
      rw [hnone] at hentry
      cases hentry

/-- A block of a pool without stake in its epoch leads to the error. -/
theorem exists_new_eq_dataMissing (hsource : Answers source hasStake)
    (htotal : ∀ epoch pools, ∃ distribution, source epoch pools = .ok distribution)
    (hrelease : api.shouldReleaseData slot = some upToSlot)
    (hcounts : (countBlocksByEpochAndProducer cfg (api.blocksProducedUpToSlot upToSlot) :
      Except (InherentDataCreationError ε BlockProducer) _) = .ok counts)
    (hblock : block ∈ api.blocksProducedUpToSlot upToSlot)
    (hepoch : dataEpoch? cfg block.1 = some epoch) {pool : MainchainKeyHash}
    (hpool : cfg.asCardanoSpo block.2 = some pool) (hnone : ¬ hasStake epoch pool)
    (order : IterationOrder BlockProducer) :
    ∃ epoch producer,
      (BlockParticipationInherentDataProvider.new cfg order source (some api) slot :
        Except _ (BlockParticipationInherentDataProvider BlockProducer Delegator)) =
          .error (.dataMissing epoch producer) := by
  obtain ⟨-, htally, -⟩ := countBlocksByEpochAndProducer_eq_ok hcounts
  rw [new_of_counts hrelease hcounts]
  cases hsummaries : (order.epochs counts).mapM (epochBreakdown cfg order source) with
  | error error =>
      obtain ⟨visit, -, hbreakdown⟩ := exists_of_mapM_eq_error hsummaries
      obtain ⟨distribution, hfetch⟩ := htotal visit.1 _
      obtain ⟨produced, -, rfl, -⟩ := epochBreakdown_eq_error hfetch hbreakdown
      exact ⟨visit.1, produced.1, rfl⟩
  | ok summaries =>
      obtain ⟨visit, hvisit, rfl, produced, hproduced, hproducer⟩ :=
        exists_mem_producers_of_block htally order hblock hepoch
      obtain ⟨distribution, hfetch, hentries⟩ :=
        exists_epochBreakdown_iff.mp (exists_ok_of_mem hsummaries hvisit)
      have hentry := hentries produced hproduced pool (hproducer ▸ hpool)
      exact absurd ((hsource _ _ _ hfetch pool).mp hentry).2 hnone

end PartnerChains.BlockParticipation
