import PartnerChains.Algorithm.BlockParticipation

/-!
# Blocks are counted by epoch and producer

The counts depend on the multiset of the blocks only, and visiting the nested hash maps in any
order meets every group of blocks once.
-/

namespace PartnerChains.BlockParticipation

open Fallible

variable {BlockProducer Delegator ε : Type} {cfg : Config BlockProducer Delegator}

/-! ## Groups -/

/-- The epoch of the data that belong to a slot, if the slot has one. -/
def dataEpoch? (cfg : Config BlockProducer Delegator) (slot : Slot) : Option McEpochNumber :=
  if slot * cfg.slotDuration.toNat < 2 ^ 64 then
    (AuthoritySelection.timestampToMainchainEpoch cfg.mcEpochConfig
      (slot * cfg.slotDuration.toNat)).toOption.bind fun mcEpoch =>
        (Candidates.offsetDataEpoch mcEpoch).toOption
  else none

theorem dataMcEpochForSlot_eq_ok_iff {slot : Slot} {epoch : McEpochNumber} :
    (dataMcEpochForSlot cfg slot :
      Except (InherentDataCreationError ε BlockProducer) McEpochNumber) = .ok epoch ↔
      dataEpoch? cfg slot = some epoch := by
  rw [dataMcEpochForSlot, dataEpoch?]
  by_cases htime : slot * cfg.slotDuration.toNat < 2 ^ 64
  · rw [if_pos htime, if_pos htime]
    cases AuthoritySelection.timestampToMainchainEpoch cfg.mcEpochConfig
        (slot * cfg.slotDuration.toNat) with
    | error e => simp [Except.toOption]
    | ok mcEpoch =>
        cases hoffset : Candidates.offsetDataEpoch mcEpoch with
        | error offset => simp [Except.toOption, hoffset, Except.mapError]
        | ok dataEpoch => simp [Except.toOption, hoffset, Except.mapError]
  · rw [if_neg htime, if_neg htime]
    simp

def group? (cfg : Config BlockProducer Delegator) (block : Slot × BlockProducer) :
    Option (McEpochNumber × BlockProducer) :=
  (dataEpoch? cfg block.1).map fun epoch => (epoch, block.2)

theorem length_groups {blocks : List (Slot × BlockProducer)}
    (hsome : ∀ block ∈ blocks, (group? cfg block).isSome) :
    (blocks.filterMap (group? cfg)).length = blocks.length := by
  rw [List.length_filterMap_eq_countP]
  exact List.countP_eq_length.mpr hsome

variable [LinearOrder BlockProducer]

def blocksIn (cfg : Config BlockProducer Delegator) (blocks : List (Slot × BlockProducer))
    (group : McEpochNumber × BlockProducer) : ℕ :=
  blocks.countP fun block => group? cfg block = some group

theorem count_groups (blocks : List (Slot × BlockProducer))
    (group : McEpochNumber × BlockProducer) :
    (blocks.filterMap (group? cfg)).count group = blocksIn cfg blocks group := by
  rw [List.count, List.countP_filterMap, blocksIn]
  refine List.countP_congr fun block _ => ?_
  cases group? cfg block <;> simp

theorem countP_groups {blocks : List (Slot × BlockProducer)}
    (hsome : ∀ block ∈ blocks, (group? cfg block).isSome) (producer : BlockProducer) :
    (blocks.filterMap (group? cfg)).countP (·.2 = producer) = blocks.countP (·.2 = producer) := by
  rw [List.countP_filterMap]
  refine List.countP_congr fun block hblock => ?_
  obtain ⟨group, hgroup⟩ := Option.isSome_iff_exists.mp (hsome block hblock)
  obtain ⟨epoch, -, rfl⟩ := Option.map_eq_some_iff.mp hgroup
  simp [hgroup]

theorem sum_count_dedup (p : McEpochNumber × BlockProducer → Bool)
    (groups : List (McEpochNumber × BlockProducer)) :
    ((groups.dedup.filter p).map fun group => groups.count group).sum = groups.countP p := by
  rw [← List.sum_map_count_dedup_filter_eq_countP p groups]
  -- the two sides compare pairs by different instances
  congr! 4
  exact lawful_beq_subsingleton _ _

/-! ## One block -/

def count? (counts : EpochCounts BlockProducer) (group : McEpochNumber × BlockProducer) :
    Option ℕ :=
  (counts.get? group.1).bind fun producers => producers.get? group.2

theorem count?_insert (counts : EpochCounts BlockProducer)
    (group other : McEpochNumber × BlockProducer) (count : ℕ) :
    count? (counts.insert group.1 (((counts.get? group.1).getD .empty).insert group.2 count))
        other = if other = group then some count else count? counts other := by
  obtain ⟨epoch, producer⟩ := group
  obtain ⟨otherEpoch, otherProducer⟩ := other
  rw [count?, OrderedMap.get?_insert]
  by_cases hepoch : otherEpoch = epoch
  · subst hepoch
    rw [if_pos rfl, Option.bind_some, OrderedMap.get?_insert]
    by_cases hproducer : otherProducer = producer
    · simp [hproducer]
    · cases hcounts : counts.get? otherEpoch <;> simp [hproducer, count?, hcounts]
  · simp [hepoch, count?]

theorem countBlock_eq_ok_iff {counts counts' : EpochCounts BlockProducer}
    {block : Slot × BlockProducer} :
    (countBlock cfg counts block :
      Except (InherentDataCreationError ε BlockProducer) _) = .ok counts' ↔
      ∃ group, group? cfg block = some group ∧
        (cfg.overflowChecks = true → (count? counts group).getD 0 + 1 < 2 ^ 32) ∧
        counts.insert group.1 (((counts.get? group.1).getD .empty).insert group.2
          (((count? counts group).getD 0 + 1) % 2 ^ 32)) = counts' := by
  have hcount (epoch : McEpochNumber) (producer : BlockProducer) :
      (((counts.get? epoch).getD .empty).get? producer).getD 0 =
        (count? counts (epoch, producer)).getD 0 := by
    cases hcounts : counts.get? epoch <;> simp [count?, hcounts]
  simp only [countBlock, bind_eq_ok_iff, dataMcEpochForSlot_eq_ok_iff, mapError_eq_ok_iff,
    Checked.addWith_eq_ok_iff, hcount, group?, Option.map_eq_some_iff]
  constructor
  · rintro ⟨epoch, hepoch, _, ⟨hlt, rfl⟩, hcounts⟩
    exact ⟨_, ⟨epoch, hepoch, rfl⟩, hlt, Except.ok.inj hcounts⟩
  · rintro ⟨_, ⟨epoch, hepoch, rfl⟩, hlt, rfl⟩
    exact ⟨epoch, hepoch, _, ⟨hlt, rfl⟩, rfl⟩

/-! ## All blocks -/

/-- The counts are those of the groups, as numbers of 32 bits. -/
structure Tallied (groups : List (McEpochNumber × BlockProducer))
    (counts : EpochCounts BlockProducer) : Prop where
  count : ∀ group, count? counts group =
    if group ∈ groups then some (groups.count group % 2 ^ 32) else none
  inhabited : ∀ epoch producers, counts.get? epoch = some producers →
    ∃ producer count, producers.get? producer = some count

theorem tallied_nil : Tallied [] (.empty : EpochCounts BlockProducer) where
  count _ := rfl
  inhabited _ _ h := by cases h

theorem Tallied.getD {groups : List (McEpochNumber × BlockProducer)}
    {counts : EpochCounts BlockProducer} (h : Tallied groups counts)
    (group : McEpochNumber × BlockProducer) :
    (count? counts group).getD 0 = groups.count group % 2 ^ 32 := by
  rw [h.count]
  split_ifs with hmem
  · rfl
  · rw [List.count_eq_zero.mpr hmem]
    rfl

theorem Tallied.append {groups : List (McEpochNumber × BlockProducer)}
    {counts : EpochCounts BlockProducer} (h : Tallied groups counts)
    (group : McEpochNumber × BlockProducer) :
    Tallied (groups ++ [group]) (counts.insert group.1
      (((counts.get? group.1).getD .empty).insert group.2
        (((count? counts group).getD 0 + 1) % 2 ^ 32))) where
  count other := by
    rw [count?_insert, h.getD, Nat.mod_add_mod]
    by_cases hother : other = group
    · simp [hother]
    · simp [hother, h.count, Ne.symm hother]
  inhabited epoch producers hproducers := by
    rw [OrderedMap.get?_insert] at hproducers
    split_ifs at hproducers with hepoch
    · obtain rfl := Option.some.inj hproducers
      exact ⟨group.2, _, (OrderedMap.get?_insert _ _ _ _).trans (if_pos rfl)⟩
    · exact h.inhabited epoch producers hproducers

theorem Tallied.unique {groups groups' : List (McEpochNumber × BlockProducer)}
    {counts counts' : EpochCounts BlockProducer} (h : Tallied groups counts)
    (h' : Tallied groups' counts') (hperm : groups.Perm groups') : counts = counts' := by
  have hcount (group : McEpochNumber × BlockProducer) :
      count? counts group = count? counts' group := by
    rw [h.count, h'.count, hperm.count_eq]
    simp only [hperm.mem_iff]
  refine OrderedMap.ext_get? fun epoch => ?_
  cases hepoch : counts.get? epoch with
  | none =>
      cases hepoch' : counts'.get? epoch with
      | none => rfl
      | some producers' =>
          obtain ⟨producer, count, hproducer⟩ := h'.inhabited epoch producers' hepoch'
          have hsame := hcount (epoch, producer)
          simp [count?, hepoch, hepoch', hproducer] at hsame
  | some producers =>
      obtain ⟨producer, count, hproducer⟩ := h.inhabited epoch producers hepoch
      cases hepoch' : counts'.get? epoch with
      | none =>
          have hsame := hcount (epoch, producer)
          simp [count?, hepoch, hepoch', hproducer] at hsame
      | some producers' =>
          congr 1
          refine OrderedMap.ext_get? fun producer => ?_
          simpa [count?, hepoch, hepoch'] using hcount (epoch, producer)

section Fold

variable {groups : List (McEpochNumber × BlockProducer)}
  {counts counts' : EpochCounts BlockProducer} {blocks : List (Slot × BlockProducer)}

theorem foldlM_countBlock_eq_ok (htally : Tallied groups counts)
    (hsmall : cfg.overflowChecks = true → ∀ group, groups.count group < 2 ^ 32)
    (h : (blocks.foldlM (countBlock cfg) counts :
      Except (InherentDataCreationError ε BlockProducer) _) = .ok counts') :
    (∀ block ∈ blocks, (group? cfg block).isSome) ∧
      Tallied (groups ++ blocks.filterMap (group? cfg)) counts' ∧
      (cfg.overflowChecks = true →
        ∀ group, (groups ++ blocks.filterMap (group? cfg)).count group < 2 ^ 32) := by
  induction blocks generalizing groups counts with
  | nil =>
      obtain rfl := Except.ok.inj h
      exact ⟨by simp, by simpa using htally, by simpa using hsmall⟩
  | cons block blocks ih =>
      rw [List.foldlM_cons, bind_eq_ok_iff] at h
      obtain ⟨next, hnext, hrest⟩ := h
      obtain ⟨group, hgroup, hlt, rfl⟩ := countBlock_eq_ok_iff.mp hnext
      have hsmall' : cfg.overflowChecks = true →
          ∀ other, (groups ++ [group]).count other < 2 ^ 32 := by
        intro hchecks other
        have hlt := hlt hchecks
        rw [htally.getD, Nat.mod_eq_of_lt (hsmall hchecks group)] at hlt
        rw [List.count_append, List.count_singleton]
        by_cases hother : group = other
        · subst hother
          simpa using hlt
        · simpa [hother] using hsmall hchecks other
      obtain ⟨hsome, htallied, hcounts⟩ := ih (htally.append group) hsmall' hrest
      rw [List.append_assoc, List.singleton_append] at htallied hcounts
      rw [List.filterMap_cons_some hgroup]
      refine ⟨List.forall_mem_cons.mpr ⟨?_, hsome⟩, htallied, hcounts⟩
      rw [hgroup]
      rfl

theorem exists_foldlM_countBlock (htally : Tallied groups counts)
    (hsome : ∀ block ∈ blocks, (group? cfg block).isSome)
    (hsmall : cfg.overflowChecks = true →
      ∀ group, (groups ++ blocks.filterMap (group? cfg)).count group < 2 ^ 32) :
    ∃ counts', (blocks.foldlM (countBlock cfg) counts :
      Except (InherentDataCreationError ε BlockProducer) _) = .ok counts' := by
  induction blocks generalizing groups counts with
  | nil => exact ⟨counts, rfl⟩
  | cons block blocks ih =>
      obtain ⟨hfirst, hrest⟩ := List.forall_mem_cons.mp hsome
      obtain ⟨group, hgroup⟩ := Option.isSome_iff_exists.mp hfirst
      have hsplit : groups ++ (block :: blocks).filterMap (group? cfg) =
          (groups ++ [group]) ++ blocks.filterMap (group? cfg) := by
        rw [List.filterMap_cons_some hgroup, List.append_assoc, List.singleton_append]
      rw [hsplit] at hsmall
      have hlt : cfg.overflowChecks = true → (count? counts group).getD 0 + 1 < 2 ^ 32 := by
        intro hchecks
        have hle := hsmall hchecks group
        rw [List.count_append, List.count_append, List.count_singleton_self] at hle
        rw [htally.getD]
        have hmod := Nat.mod_le (groups.count group) (2 ^ 32)
        omega
      obtain ⟨counts', hcounts'⟩ := ih (htally.append group) hrest hsmall
      refine ⟨counts', ?_⟩
      rw [List.foldlM_cons, countBlock_eq_ok_iff.mpr ⟨group, hgroup, hlt, rfl⟩, ok_bind, hcounts']

theorem countBlocksByEpochAndProducer_eq_ok
    (h : (countBlocksByEpochAndProducer cfg blocks :
      Except (InherentDataCreationError ε BlockProducer) _) = .ok counts) :
    (∀ block ∈ blocks, (group? cfg block).isSome) ∧
      Tallied (blocks.filterMap (group? cfg)) counts ∧
      (cfg.overflowChecks = true →
        ∀ group, (blocks.filterMap (group? cfg)).count group < 2 ^ 32) :=
  foldlM_countBlock_eq_ok tallied_nil (by simp) h

theorem exists_countBlocksByEpochAndProducer
    (hsome : ∀ block ∈ blocks, (group? cfg block).isSome)
    (hsmall : cfg.overflowChecks = true →
      ∀ group, (blocks.filterMap (group? cfg)).count group < 2 ^ 32) :
    ∃ counts, (countBlocksByEpochAndProducer cfg blocks :
      Except (InherentDataCreationError ε BlockProducer) _) = .ok counts :=
  exists_foldlM_countBlock tallied_nil hsome hsmall

theorem countBlocksByEpochAndProducer_perm {blocks' : List (Slot × BlockProducer)}
    (hperm : blocks.Perm blocks')
    (h : (countBlocksByEpochAndProducer cfg blocks :
      Except (InherentDataCreationError ε BlockProducer) _) = .ok counts) :
    (countBlocksByEpochAndProducer cfg blocks' :
      Except (InherentDataCreationError ε BlockProducer) _) = .ok counts := by
  obtain ⟨hsome, htally, hsmall⟩ := countBlocksByEpochAndProducer_eq_ok h
  have hgroups := hperm.filterMap (group? cfg)
  obtain ⟨counts', hcounts'⟩ : ∃ counts', (countBlocksByEpochAndProducer cfg blocks' :
      Except (InherentDataCreationError ε BlockProducer) _) = .ok counts' :=
    exists_countBlocksByEpochAndProducer
      (fun block hblock => hsome block (hperm.mem_iff.mpr hblock))
      (by simpa [hgroups.count_eq] using hsmall)
  obtain ⟨-, htally', -⟩ := countBlocksByEpochAndProducer_eq_ok hcounts'
  rw [htally.unique htally' hgroups]
  exact hcounts'

end Fold

/-! ## Visiting the counts -/

/-- The groups with their counts, in the order in which they are visited. -/
def visited (order : IterationOrder BlockProducer) (counts : EpochCounts BlockProducer) :
    List ((McEpochNumber × BlockProducer) × ℕ) :=
  (order.epochs counts).flatMap fun (epoch, producers) =>
    (order.producers epoch producers).map fun (producer, count) => ((epoch, producer), count)

theorem mem_visited {order : IterationOrder BlockProducer} {counts : EpochCounts BlockProducer}
    {group : McEpochNumber × BlockProducer} {count : ℕ} :
    (group, count) ∈ visited order counts ↔ count? counts group = some count := by
  obtain ⟨epoch, producer⟩ := group
  simp only [visited, List.mem_flatMap, List.mem_map, Prod.exists, count?,
    Option.bind_eq_some_iff]
  constructor
  · rintro ⟨epoch', producers, hepoch, producer', count', hproducer, heq⟩
    obtain ⟨⟨rfl, rfl⟩, rfl⟩ : (epoch' = epoch ∧ producer' = producer) ∧ count' = count := by
      simpa using heq
    exact ⟨producers, OrderedMap.mem_entries_iff.mp ((order.epochs_perm counts).mem_iff.mp hepoch),
      OrderedMap.mem_entries_iff.mp ((order.producers_perm _ producers).mem_iff.mp hproducer)⟩
  · rintro ⟨producers, hepoch, hproducer⟩
    exact ⟨epoch, producers,
      (order.epochs_perm counts).mem_iff.mpr (OrderedMap.mem_entries_iff.mpr hepoch), producer,
      count, (order.producers_perm _ producers).mem_iff.mpr
        (OrderedMap.mem_entries_iff.mpr hproducer), rfl⟩

theorem nodup_visited (order : IterationOrder BlockProducer)
    (counts : EpochCounts BlockProducer) : (visited order counts).Nodup := by
  refine List.nodup_flatMap.mpr ⟨?_, ?_⟩
  · rintro ⟨epoch, producers⟩ -
    refine ((order.producers_perm epoch producers).nodup_iff.mpr producers.nodup_entries).map ?_
    rintro ⟨producer, count⟩ ⟨producer', count'⟩ h
    simpa using h
  · have hkeys : ((order.epochs counts).map Prod.fst).Nodup :=
      ((order.epochs_perm counts).map _).nodup_iff.mpr counts.nodup_keys
    refine (List.pairwise_map.mp hkeys).imp ?_
    rintro ⟨epoch, producers⟩ ⟨epoch', producers'⟩ hne entry hentry hentry'
    obtain ⟨_, -, rfl⟩ := List.mem_map.mp hentry
    obtain ⟨_, -, heq⟩ := List.mem_map.mp hentry'
    exact hne (congrArg (fun entry => entry.1.1) heq).symm

theorem Tallied.visited_perm {groups : List (McEpochNumber × BlockProducer)}
    {counts : EpochCounts BlockProducer} (h : Tallied groups counts)
    (order : IterationOrder BlockProducer) :
    (visited order counts).Perm
      (groups.dedup.map fun group => (group, groups.count group % 2 ^ 32)) := by
  refine (List.perm_ext_iff_of_nodup (nodup_visited order counts) ?_).mpr ?_
  · exact groups.nodup_dedup.map fun _ _ heq => congrArg Prod.fst heq
  · rintro ⟨group, count⟩
    rw [mem_visited, h.count, List.mem_map]
    constructor
    · intro hcount
      split_ifs at hcount with hmem
      exact ⟨group, List.mem_dedup.mpr hmem, by rw [Option.some.inj hcount]⟩
    · rintro ⟨group', hmem, heq⟩
      obtain ⟨rfl, rfl⟩ := Prod.mk.inj heq
      exact if_pos (List.mem_dedup.mp hmem)

end PartnerChains.BlockParticipation
