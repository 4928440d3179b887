import PartnerChains.Verification.BlockSearch.Completeness

/-!
# The latest block of a range of slots, up to a block

Blocks after the latest one that may be returned take part in the search. From the latest block on
every block of the range compares equal, and the search returns the first of them that it meets.
-/

namespace PartnerChains.BlockSearch.Client

open Bisection Fallible

variable {Block : Type} {client : Client Block} {slotOf : Block → ScSlotNumber}
  {slotRange : SlotRange} {latestBlock last n : ℕ} {result : Option ℕ}

/-- The slot of the block lies in the range. -/
def InSlotRange (slotOf : Block → ScSlotNumber) (slotRange : SlotRange) (block : Block) : Prop :=
  slotRange.start ≤ slotOf block ∧ slotOf block < slotRange.stop

/-- The blocks of the range, by their numbers. -/
def inRange (client : Client Block) (slotOf : Block → ScSlotNumber) (slotRange : SlotRange) :
    Set ℕ :=
  { n | client.HasBlock (InSlotRange slotOf slotRange) n }

theorem inRange_eq : client.inRange slotOf slotRange =
    { n | 1 ≤ n ∧ n < client.bestNumber + 1 ∧
      client.anyBlockInSlotRange slotOf slotRange n = .ok .eq } :=
  Set.ext fun _ => hasBlock_iff (compares_anyBlockInSlotRange client slotOf slotRange)
    fun _ => compareSlot_eq_eq_iff

theorem latestBlockInSlotRange_eq (n : ℕ) :
    client.latestBlockInSlotRange slotOf slotRange latestBlock n =
      lastUpTo (client.anyBlockInSlotRange slotOf slotRange) latestBlock n :=
  rfl

theorem exists_isGreatest (hn : n ∈ client.inRange slotOf slotRange) :
    ∃ last, IsGreatest (client.inRange slotOf slotRange) last := by
  have hbounded : BddAbove (client.inRange slotOf slotRange) := by
    refine ⟨client.bestNumber, ?_⟩
    rintro m ⟨_, block, hblock, _⟩
    exact le_bestNumber hblock
  exact ⟨_, Nat.sSup_mem ⟨n, hn⟩ hbounded, fun m hm => le_csSup hbounded hm⟩

/-- The greatest block of the range up to `latestBlock`. -/
def IsLatest (client : Client Block) (slotOf : Block → ScSlotNumber) (slotRange : SlotRange)
    (latestBlock n : ℕ) : Prop :=
  IsGreatest { n | n ≤ latestBlock ∧ n ∈ client.inRange slotOf slotRange } n

/-- A bisection of the numbers up to `stop` meets `low` before the other ones up to `high`. -/
def MeetsFirst (low high stop : ℕ) : Prop :=
  Bisects (2 ^ 32) (position low high : ℕ → Except ApiError Ordering) 1 stop (some low)

section

variable (hslots : (client.blocks.drop 1).Pairwise fun block next => slotOf block < slotOf next)
  (hlatest : latestBlock ≤ client.bestNumber)

include hslots hlatest

theorem nextSucceeds_anyBlockInSlotRange :
    NextSucceeds (client.anyBlockInSlotRange slotOf slotRange) latestBlock 1
      (client.bestNumber + 1) :=
  fun n _ _ _ hlt =>
    (ordered_anyBlockInSlotRange hslots slotRange).succeeds (n + 1) (by omega) (by omega)

theorem ordered_latestBlockInSlotRange :
    Ordered (client.latestBlockInSlotRange slotOf slotRange latestBlock) 1
      (client.bestNumber + 1) :=
  (ordered_anyBlockInSlotRange hslots slotRange).lastUpTo
    (nextSucceeds_anyBlockInSlotRange hslots hlatest)

/-- A search that ends has met a block that compares equal, or there is none. -/
theorem exists_finds_latest_iff :
    (∃ result,
        Bisects (2 ^ 32) (client.latestBlockInSlotRange slotOf slotRange latestBlock) 1
          (client.bestNumber + 1) result ∧
        Finds (client.latestBlockInSlotRange slotOf slotRange latestBlock) 1
          (client.bestNumber + 1) result) ↔
      SumsFit (2 ^ 32) (client.latestBlockInSlotRange slotOf slotRange latestBlock) 1
        (client.bestNumber + 1) := by
  have hlast : client.latestBlockInSlotRange slotOf slotRange latestBlock
      (client.bestNumber + 1) ≠ .ok .eq := by
    obtain ⟨error, herror⟩ := (compares_anyBlockInSlotRange client slotOf slotRange).missing _
      (hash_eq_none (Nat.lt_succ_self client.bestNumber))
    rw [latestBlockInSlotRange_eq, lastUpTo_of_error herror]
    simp
  rw [exists_finds_iff (ordered_latestBlockInSlotRange hslots hlatest)]
  constructor
  · exact fun h => (h (by omega)).1
  · exact fun h _ => ⟨h, fun hzero => absurd hzero.1 (by decide), fun hend => hlast hend.2⟩

theorem finds_of_bisects
    (h : Bisects (2 ^ 32) (client.latestBlockInSlotRange slotOf slotRange latestBlock) 1
      (client.bestNumber + 1) result) :
    Finds (client.latestBlockInSlotRange slotOf slotRange latestBlock) 1
      (client.bestNumber + 1) result := by
  obtain ⟨_, hbisects, hfinds⟩ := (exists_finds_latest_iff hslots hlatest).mpr h.sumsFit
  rwa [h.unique hbisects]

theorem mem_inRange_of_latest (hn : 1 ≤ n) (hstop : n < client.bestNumber + 1)
    (h : client.latestBlockInSlotRange slotOf slotRange latestBlock n = .ok .eq) :
    n ∈ client.inRange slotOf slotRange := by
  have hnext : NextSucceeds (client.anyBlockInSlotRange slotOf slotRange) latestBlock 1
      (client.bestNumber + 1) := nextSucceeds_anyBlockInSlotRange hslots hlatest
  rw [inRange_eq]
  exact ⟨hn, hstop, ((lastUpTo_eq_ok_iff hnext hn hstop).2.1.mp h).1⟩

/-- Up to the latest block, the greatest block of the range alone compares equal. -/
theorem latestBlockInSlotRange_eq_ok_iff
    (hgreatest : IsGreatest (client.inRange slotOf slotRange) last) (hlast : last ≤ latestBlock)
    (hn : 1 ≤ n) (hstop : n < client.bestNumber + 1) :
    client.latestBlockInSlotRange slotOf slotRange latestBlock n = .ok .eq ↔ n = last := by
  by_cases hlt : n < latestBlock
  · rw [latestBlockInSlotRange_eq, (ordered_anyBlockInSlotRange hslots slotRange).lastUpTo_eq_iff
      hn (by omega) hlt, ← inRange_eq]
    constructor
    · exact fun h => h.unique hgreatest
    · rintro rfl
      exact hgreatest
  · constructor
    · intro h
      have hle := hgreatest.2 (mem_inRange_of_latest hslots hlatest hn hstop h)
      omega
    · rintro rfl
      have hmem := hgreatest.1
      rw [inRange_eq] at hmem
      exact lastUpTo_of_limit hmem.2.2 (Nat.le_of_not_lt hlt)

/-- Without blocks of the range after the latest block, the search is right. -/
theorem answers_of_le
    (hfinds : Finds (client.latestBlockInSlotRange slotOf slotRange latestBlock) 1
      (client.bestNumber + 1) result)
    (hle : ∀ last, IsGreatest (client.inRange slotOf slotRange) last → last ≤ latestBlock) :
    Answers (client.IsLatest slotOf slotRange latestBlock) result := by
  cases result with
  | none =>
      rintro n ⟨⟨_, hmem⟩, _⟩
      obtain ⟨last, hgreatest⟩ := exists_isGreatest hmem
      obtain ⟨hone, block, hblock, _⟩ := hgreatest.1
      have hstop := Nat.lt_succ_of_le (le_bestNumber hblock)
      exact hfinds last hone hstop ((latestBlockInSlotRange_eq_ok_iff hslots hlatest hgreatest
        (hle last hgreatest) hone hstop).mpr rfl)
  | some n =>
      obtain ⟨hone, hstop, hequal⟩ := hfinds
      have hmem := mem_inRange_of_latest hslots hlatest hone hstop hequal
      obtain ⟨last, hgreatest⟩ := exists_isGreatest hmem
      obtain rfl := (latestBlockInSlotRange_eq_ok_iff hslots hlatest hgreatest
        (hle last hgreatest) hone hstop).mp hequal
      exact ⟨⟨hle n hgreatest, hmem⟩, fun m hm => hgreatest.2 hm.2⟩

/-- With a block of the range after the latest block, the search ends with a block of the range. If
the latest block is in the range as well, it is the first one met from the latest block on. -/
theorem exists_position_of_bisects
    (hgreatest : IsGreatest (client.inRange slotOf slotRange) last) (hlast : latestBlock < last)
    (h : Bisects (2 ^ 32) (client.latestBlockInSlotRange slotOf slotRange latestBlock) 1
      (client.bestNumber + 1) result) :
    ∃ found, result = some found ∧ found ∈ client.inRange slotOf slotRange ∧
      (latestBlock ∈ client.inRange slotOf slotRange →
        Bisects (2 ^ 32) (position latestBlock last : ℕ → Except ApiError Ordering) 1
          (client.bestNumber + 1) (some found)) := by
  have hfinds := finds_of_bisects hslots hlatest h
  cases result with
  | none =>
      have hmem := hgreatest.1
      rw [inRange_eq] at hmem
      exact absurd (lastUpTo_of_limit hmem.2.2 hlast.le) (hfinds last hmem.1 hmem.2.1)
  | some found =>
      refine ⟨found, rfl, mem_inRange_of_latest hslots hlatest hfinds.1 hfinds.2.1 hfinds.2.2,
        fun hlimit => ?_⟩
      rw [inRange_eq] at hgreatest hlimit
      refine h.mono fun n ordering hn hstop hcompare => ?_
      rcases Nat.lt_or_eq_of_le hstop with hlt | rfl
      · rw [← hcompare]
        exact ((ordered_anyBlockInSlotRange hslots slotRange).lastUpTo_eq_position
          (nextSucceeds_anyBlockInSlotRange hslots hlatest) hgreatest hlimit hn hlt).symm
      · -- no block after the best one is compared
        obtain ⟨error, herror⟩ := (compares_anyBlockInSlotRange client slotOf slotRange).missing _
          (hash_eq_none (Nat.lt_succ_self client.bestNumber))
        rw [latestBlockInSlotRange_eq, lastUpTo_of_error herror] at hcompare
        cases hcompare

/-- With a block of the range after the latest block, the latest block has to be in the range, and
it has to be met first. -/
theorem answers_iff_meetsFirst
    (hgreatest : IsGreatest (client.inRange slotOf slotRange) last) (hlast : latestBlock < last)
    (h : Bisects (2 ^ 32) (client.latestBlockInSlotRange slotOf slotRange latestBlock) 1
      (client.bestNumber + 1) result) :
    Answers (client.IsLatest slotOf slotRange latestBlock) result ↔
      latestBlock ∈ client.inRange slotOf slotRange ∧
        MeetsFirst latestBlock last (client.bestNumber + 1) := by
  obtain ⟨found, rfl, hfound, hposition⟩ :=
    exists_position_of_bisects hslots hlatest hgreatest hlast h
  constructor
  · rintro ⟨⟨hle, _⟩, hupper⟩
    have hmem : latestBlock ∈ client.inRange slotOf slotRange := by
      have hlast' := hgreatest.1
      rw [inRange_eq] at hfound hlast' ⊢
      exact ⟨hfound.1.trans hle, by omega, (ordered_anyBlockInSlotRange hslots slotRange).eq_between
        hfound.1 hle hlast.le hlast'.2.1 hfound.2.2 hlast'.2.2⟩
    obtain rfl : found = latestBlock := le_antisymm hle (hupper ⟨le_rfl, hmem⟩)
    exact ⟨hmem, hposition hmem⟩
  · rintro ⟨hmem, hmeets⟩
    obtain rfl := Option.some.inj ((hposition hmem).unique hmeets)
    exact ⟨⟨le_rfl, hmem⟩, fun m hm => hm.1⟩

/-- The latest block of the range is found exactly when the sums of the bisection fit, and, with
blocks of the range after `latestBlock`, this block is one of them and met first. -/
theorem latestBlock_located_iff :
    client.Locates (client.latestBlockInSlotRange slotOf slotRange latestBlock)
        (client.IsLatest slotOf slotRange latestBlock) ↔
      client.bestNumber + 1 < 2 ^ 32 ∧
      SumsFit (2 ^ 32) (client.latestBlockInSlotRange slotOf slotRange latestBlock) 1
        (client.bestNumber + 1) ∧
      ∀ last, IsGreatest (client.inRange slotOf slotRange) last → latestBlock < last →
        latestBlock ∈ client.inRange slotOf slotRange ∧
          MeetsFirst latestBlock last (client.bestNumber + 1) := by
  rw [locates_iff]
  refine and_congr_right fun _ => ?_
  constructor
  · rintro ⟨result, hbisects, hanswers⟩
    exact ⟨hbisects.sumsFit, fun last hgreatest hlast =>
      (answers_iff_meetsFirst hslots hlatest hgreatest hlast hbisects).mp hanswers⟩
  · rintro ⟨hfit, hmeets⟩
    obtain ⟨result, hbisects, hfinds⟩ := (exists_finds_latest_iff hslots hlatest).mpr hfit
    refine ⟨result, hbisects, ?_⟩
    by_cases hafter : ∃ last, IsGreatest (client.inRange slotOf slotRange) last ∧ latestBlock < last
    · obtain ⟨last, hgreatest, hlast⟩ := hafter
      exact (answers_iff_meetsFirst hslots hlatest hgreatest hlast hbisects).mpr
        (hmeets last hgreatest hlast)
    · refine answers_of_le hslots hlatest hfinds fun last hgreatest => ?_
      by_contra hnot
      exact hafter ⟨last, hgreatest, Nat.lt_of_not_le hnot⟩

end

theorem latestBlock_located_iff_best :
    (numbers 10).Locates ((numbers 10).latestBlockInSlotRange .ofNat ⟨1, 11⟩ 10)
      ((numbers 10).IsLatest .ofNat ⟨1, 11⟩ 10) := by
  refine (latestBlock_located_iff (by decide) (by decide)).mpr
    ⟨by decide, .of_double_lt (by decide), fun last hgreatest hlast => ?_⟩
  obtain ⟨_, block, hblock, _⟩ := hgreatest.1
  exact absurd (le_bestNumber hblock) (Nat.not_le.mpr hlast)

/-- Of ten blocks in the range, the sixth is the first one that the search meets. -/
theorem latestBlock_of_three_exceeded :
    ((numbers 10).blocks.drop 1).Pairwise (fun m n => UInt64.ofNat m < UInt64.ofNat n) ∧
      3 ≤ (numbers 10).bestNumber ∧
      (numbers 10).findBlockNumber true 1
        ((numbers 10).latestBlockInSlotRange .ofNat ⟨1, 11⟩ 3) = .ok 6 ∧
      ¬ (numbers 10).Locates ((numbers 10).latestBlockInSlotRange .ofNat ⟨1, 11⟩ 3)
        ((numbers 10).IsLatest .ofNat ⟨1, 11⟩ 3) := by
  refine ⟨by decide, by decide, by decide, fun h => ?_⟩
  obtain ⟨_, result, hbisects, hanswers⟩ := locates_iff.mp h
  obtain rfl := hbisects.unique (.found (by decide) (by decide) rfl)
  exact absurd hanswers.1.1 (by decide)

end PartnerChains.BlockSearch.Client
