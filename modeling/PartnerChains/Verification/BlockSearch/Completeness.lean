import PartnerChains.Verification.BlockSearch.BinarySearch
import PartnerChains.Verification.BlockSearch.Soundness

/-!
# Searches for blocks of an epoch or of a range of slots

Along the chain slots and epochs grow, so that the comparisons are ordered. No block after the best
one can be read, hence the end of the searched range is never taken for a block.
-/

namespace PartnerChains.BlockSearch.Client

open Bisection Fallible

variable {Block : Type} {client : Client Block} {epochOf : Block → ScEpochNumber}
  {slotOf : Block → ScSlotNumber} {epoch : ScEpochNumber} {slotRange : SlotRange}
  {block next : Block} {m n fuel : ℕ} {compareBlock : ℕ → Except ApiError Ordering}
  {Wanted : ℕ → Prop}

/-! ## Blocks of a chain -/

theorem exists_hash (h : n ≤ client.bestNumber) : ∃ block, client.hash n = some block := by
  have hlt : n < client.blocks.length := by
    simpa [blocks, bestNumber, Nat.lt_succ_iff] using h
  exact ⟨client.blocks[n], List.getElem?_eq_getElem hlt⟩

theorem hash_eq_none (h : client.bestNumber < n) : client.hash n = none := by
  rw [hash, List.getElem?_eq_none_iff]
  simpa [blocks, bestNumber] using h

theorem le_bestNumber (h : client.hash n = some block) : n ≤ client.bestNumber := by
  by_contra hnot
  rw [hash_eq_none (Nat.lt_of_not_le hnot)] at h
  cases h

/-- A relation along the chain, from the first block after genesis on. -/
theorem rel_of_hash {R : Block → Block → Prop} (h : (client.blocks.drop 1).Pairwise R)
    (hm : 1 ≤ m) (hmn : m < n) (hblock : client.hash m = some block)
    (hnext : client.hash n = some next) : R block next := by
  obtain ⟨m, rfl⟩ : ∃ k, m = 1 + k := ⟨m - 1, by omega⟩
  obtain ⟨n, rfl⟩ : ∃ k, n = 1 + k := ⟨n - 1, by omega⟩
  rw [hash, ← List.getElem?_drop] at hblock hnext
  obtain ⟨hm', rfl⟩ := List.getElem?_eq_some_iff.mp hblock
  obtain ⟨hn', rfl⟩ := List.getElem?_eq_some_iff.mp hnext
  exact List.pairwise_iff_getElem.mp h m n hm' hn' (by omega)

/-! ## The search for a number -/

/-- The number that is wanted, or the error if there is none, in every build. -/
def Locates (client : Client Block) (compareBlock : ℕ → Except ApiError Ordering)
    (Wanted : ℕ → Prop) : Prop :=
  ∀ overflowChecks, ∃ fuel,
    (∃ n, client.findBlockNumber overflowChecks fuel compareBlock = .ok n ∧ Wanted n) ∨
      client.findBlockNumber overflowChecks fuel compareBlock =
        .error (.api (.application "Could not find block")) ∧ ∀ n, ¬ Wanted n

/-- What a bisection should end with. -/
def Answers (Wanted : ℕ → Prop) : Option ℕ → Prop
  | some n => Wanted n
  | none => ∀ n, ¬ Wanted n

theorem findBlockNumber_of_search {overflowChecks : Bool} {result : Option ℕ}
    (hbest : client.bestNumber + 1 < 2 ^ 32)
    (h : binarySearchBy overflowChecks 32 compareBlock fuel 1 (client.bestNumber + 1) =
      .ok result) :
    client.findBlockNumber overflowChecks fuel compareBlock =
      result.elim (.error (.api (.application "Could not find block"))) .ok := by
  rw [findBlockNumber, Checked.addWith_of_lt _ hbest]
  simp only [Except.mapError, ok_bind, h]
  cases result <;> rfl

/-- A search that does not stop the program is a bisection. -/
theorem exists_search {found : Except FindError ℕ}
    (h : client.findBlockNumber true fuel compareBlock = found)
    (hfound : ∀ stop, found ≠ .error (.stop stop)) :
    client.bestNumber + 1 < 2 ^ 32 ∧ ∃ result,
      Bisects (2 ^ 32) compareBlock 1 (client.bestNumber + 1) result ∧
      found = result.elim (.error (.api (.application "Could not find block"))) .ok := by
  have hbest : client.bestNumber + 1 < 2 ^ 32 := by
    by_contra hnot
    have hle := Nat.le_of_not_lt hnot
    rw [findBlockNumber, Checked.addWith, if_pos rfl, Checked.add_of_le hle] at h
    exact hfound _ h.symm
  refine ⟨hbest, ?_⟩
  cases hsearch : binarySearchBy true 32 compareBlock fuel 1 (client.bestNumber + 1) with
  | error stop =>
      rw [findBlockNumber, Checked.addWith_of_lt _ hbest] at h
      simp only [Except.mapError, ok_bind, hsearch] at h
      exact absurd h.symm (hfound stop)
  | ok result =>
      refine ⟨result, bisects_of_binarySearchBy hsearch, ?_⟩
      rw [← h, findBlockNumber_of_search hbest hsearch]

theorem locates_iff :
    client.Locates compareBlock Wanted ↔ client.bestNumber + 1 < 2 ^ 32 ∧
      ∃ result, Bisects (2 ^ 32) compareBlock 1 (client.bestNumber + 1) result ∧
        Answers Wanted result := by
  constructor
  · intro h
    obtain ⟨fuel, ⟨n, hfind, hwanted⟩ | ⟨hfind, hnone⟩⟩ := h true
    · obtain ⟨hbest, result, hbisects, hresult⟩ := exists_search hfind (by simp)
      cases result with
      | none => cases hresult
      | some found =>
          obtain rfl := Except.ok.inj hresult
          exact ⟨hbest, _, hbisects, hwanted⟩
    · obtain ⟨hbest, result, hbisects, hresult⟩ := exists_search hfind (by simp)
      cases result with
      | none => exact ⟨hbest, none, hbisects, hnone⟩
      | some found => cases hresult
  · rintro ⟨hbest, result, hbisects, hanswers⟩ overflowChecks
    obtain ⟨fuel, hsearch⟩ := exists_fuel_of_bisects overflowChecks (by decide) hbisects
    refine ⟨fuel, ?_⟩
    rw [findBlockNumber_of_search hbest hsearch]
    cases result with
    | some n => exact .inl ⟨n, rfl, hanswers⟩
    | none => exact .inr ⟨rfl, hanswers⟩

/-- An ordered comparison that fails after the best block locates its equal blocks. -/
theorem locates_of_ordered (hbest : client.bestNumber + 1 < 2 ^ 31)
    (hordered : Ordered compareBlock 1 (client.bestNumber + 1))
    (hlast : compareBlock (client.bestNumber + 1) ≠ .ok .eq)
    (hwanted : ∀ n, Wanted n ↔
      1 ≤ n ∧ n < client.bestNumber + 1 ∧ compareBlock n = .ok .eq) :
    client.Locates compareBlock Wanted := by
  obtain ⟨result, hbisects, hfinds⟩ := (exists_finds_iff hordered).mpr fun _ =>
    ⟨.of_double_lt (by omega : 2 * _ < 2 ^ 32), fun h => absurd h.1 (by decide),
      fun h => hlast h.2⟩
  refine locates_iff.mpr ⟨by omega, result, hbisects, ?_⟩
  cases result with
  | some n => exact (hwanted n).mpr hfinds
  | none =>
      intro n hn
      obtain ⟨hone, hlt, hequal⟩ := (hwanted n).mp hn
      exact hfinds n hone hlt hequal

/-! ## Comparisons of one block -/

/-- A comparison of blocks, which fails where there is no block. -/
structure Compares (client : Client Block) (compareBlock : ℕ → Except ApiError Ordering)
    (ordering : Block → Ordering) : Prop where
  block : ∀ n block, client.hash n = some block → compareBlock n = .ok (ordering block)
  missing : ∀ n, client.hash n = none → ∃ error, compareBlock n = .error error

namespace Compares

variable {ordering : Block → Ordering}

theorem ordered (h : client.Compares compareBlock ordering)
    (hless : (client.blocks.drop 1).Pairwise fun block next =>
      ordering next = .lt → ordering block = .lt)
    (hgreater : (client.blocks.drop 1).Pairwise fun block next =>
      ordering block = .gt → ordering next = .gt) :
    Ordered compareBlock 1 (client.bestNumber + 1) := by
  refine ⟨fun n _ hn => ?_, fun m n hm hmn hn hlt => ?_, fun m n hm hmn hn hgt => ?_⟩
  · obtain ⟨block, hblock⟩ := exists_hash (Nat.lt_succ_iff.mp hn)
    exact ⟨_, h.block n block hblock⟩
  · rcases Nat.lt_or_eq_of_le hmn with hlt' | rfl
    · obtain ⟨block, hblock⟩ := exists_hash (Nat.lt_succ_iff.mp (hmn.trans_lt hn))
      obtain ⟨next, hnext⟩ := exists_hash (Nat.lt_succ_iff.mp hn)
      rw [h.block n next hnext, Except.ok.injEq] at hlt
      rw [h.block m block hblock, rel_of_hash hless hm hlt' hblock hnext hlt]
    · exact hlt
  · rcases Nat.lt_or_eq_of_le hmn with hlt' | rfl
    · obtain ⟨block, hblock⟩ := exists_hash (Nat.lt_succ_iff.mp (hmn.trans_lt hn))
      obtain ⟨next, hnext⟩ := exists_hash (Nat.lt_succ_iff.mp hn)
      rw [h.block m block hblock, Except.ok.injEq] at hgt
      rw [h.block n next hnext, rel_of_hash hgreater hm hlt' hblock hnext hgt]
    · exact hgt

theorem last_ne (h : client.Compares compareBlock ordering) :
    compareBlock (client.bestNumber + 1) ≠ .ok .eq := by
  obtain ⟨error, herror⟩ := h.missing _ (hash_eq_none (Nat.lt_succ_self client.bestNumber))
  rw [herror]
  simp

theorem eq_iff (h : client.Compares compareBlock ordering) :
    compareBlock n = .ok .eq ↔ ∃ block, client.hash n = some block ∧ ordering block = .eq := by
  cases hblock : client.hash n with
  | none =>
      obtain ⟨error, herror⟩ := h.missing n hblock
      simp [herror]
  | some block => simp [h.block n block hblock]

end Compares

theorem compares_anyBlockInEpoch (client : Client Block) (epochOf : Block → ScEpochNumber)
    (epoch : ScEpochNumber) :
    client.Compares (client.anyBlockInEpoch epochOf epoch)
      fun block => compare (epochOf block).toNat epoch.toNat := by
  constructor
  · intro n block hblock
    rw [anyBlockInEpoch, getEpochOfBlock, hblock]
    rfl
  · intro n hnone
    rw [anyBlockInEpoch, getEpochOfBlock, hnone]
    exact ⟨_, rfl⟩

/-- How a slot compares with a range. -/
def compareSlot (slotRange : SlotRange) (slot : ScSlotNumber) : Ordering :=
  if slot < slotRange.start then .lt else if slotRange.stop ≤ slot then .gt else .eq

theorem compares_anyBlockInSlotRange (client : Client Block) (slotOf : Block → ScSlotNumber)
    (slotRange : SlotRange) :
    client.Compares (client.anyBlockInSlotRange slotOf slotRange)
      fun block => compareSlot slotRange (slotOf block) := by
  constructor
  · intro n block hblock
    rw [anyBlockInSlotRange, getSlotOfBlock, hblock]
    simp only [ok_bind, compareSlot]
    split_ifs <;> rfl
  · intro n hnone
    rw [anyBlockInSlotRange, getSlotOfBlock, hnone]
    exact ⟨_, rfl⟩

variable {slot : ScSlotNumber}

theorem compareSlot_eq_lt_iff :
    compareSlot slotRange slot = .lt ↔ slot < slotRange.start := by
  unfold compareSlot
  split_ifs <;> simp_all

theorem compareSlot_eq_gt_iff :
    compareSlot slotRange slot = .gt ↔ slotRange.start ≤ slot ∧ slotRange.stop ≤ slot := by
  unfold compareSlot
  split_ifs <;> simp_all

theorem compareSlot_eq_eq_iff :
    compareSlot slotRange slot = .eq ↔ slotRange.start ≤ slot ∧ slot < slotRange.stop := by
  unfold compareSlot
  split_ifs <;> simp_all

theorem ordered_anyBlockInSlotRange
    (hslots : (client.blocks.drop 1).Pairwise fun block next => slotOf block < slotOf next)
    (slotRange : SlotRange) :
    Ordered (client.anyBlockInSlotRange slotOf slotRange) 1 (client.bestNumber + 1) := by
  refine (compares_anyBlockInSlotRange client slotOf slotRange).ordered
    (hslots.imp fun hlt => ?_) (hslots.imp fun hlt => ?_)
  · rw [compareSlot_eq_lt_iff, compareSlot_eq_lt_iff]
    exact UInt64.lt_trans hlt
  · rw [compareSlot_eq_gt_iff, compareSlot_eq_gt_iff]
    rintro ⟨hstart, hstop⟩
    exact ⟨UInt64.le_trans hstart (UInt64.le_of_lt hlt),
      UInt64.le_trans hstop (UInt64.le_of_lt hlt)⟩

theorem ordered_anyBlockInEpoch
    (hepochs : (client.blocks.drop 1).Pairwise fun block next => epochOf block ≤ epochOf next)
    (epoch : ScEpochNumber) :
    Ordered (client.anyBlockInEpoch epochOf epoch) 1 (client.bestNumber + 1) := by
  refine (compares_anyBlockInEpoch client epochOf epoch).ordered
    (hepochs.imp fun hle => ?_) (hepochs.imp fun hle => ?_)
  · rw [compare_lt_iff_lt, compare_lt_iff_lt]
    exact (UInt64.le_iff_toNat_le.mp hle).trans_lt
  · rw [compare_gt_iff_gt, compare_gt_iff_gt]
    exact fun hlt => hlt.trans_le (UInt64.le_iff_toNat_le.mp hle)

/-! ## The last block of an epoch -/

/-- A block with some property, after the genesis block. -/
def HasBlock (client : Client Block) (P : Block → Prop) (n : ℕ) : Prop :=
  1 ≤ n ∧ ∃ block, client.hash n = some block ∧ P block

theorem hasBlock_iff {ordering : Block → Ordering} {P : Block → Prop}
    (h : client.Compares compareBlock ordering) (hP : ∀ block, ordering block = .eq ↔ P block) :
    client.HasBlock P n ↔
      1 ≤ n ∧ n < client.bestNumber + 1 ∧ compareBlock n = .ok .eq := by
  rw [h.eq_iff]
  constructor
  · rintro ⟨hone, block, hblock, hproperty⟩
    have hlt := Nat.lt_succ_iff.mpr (le_bestNumber hblock)
    exact ⟨hone, hlt, block, hblock, (hP block).mpr hproperty⟩
  · rintro ⟨hone, -, block, hblock, hequal⟩
    exact ⟨hone, block, hblock, (hP block).mp hequal⟩

/-- The last block of an epoch compares as the last one of the blocks that compare equal. -/
theorem lastBlockInEpoch_eq (n : ℕ) :
    client.lastBlockInEpoch epochOf epoch n =
      lastUpTo (client.anyBlockInEpoch epochOf epoch) (client.bestNumber + 2) n := by
  cases hblock : client.hash n with
  | none =>
      simp [lastBlockInEpoch, lastUpTo, anyBlockInEpoch, getEpochOfBlock, hblock]
  | some block =>
      have hlimit : n < client.bestNumber + 2 := by
        have hle := le_bestNumber hblock
        omega
      have hfirst := (compares_anyBlockInEpoch client epochOf epoch).block n block hblock
      cases hcompare : compare (epochOf block).toNat epoch.toNat with
      | lt =>
          rw [lastUpTo_of_lt (hfirst.trans (congrArg _ hcompare))]
          simp [lastBlockInEpoch, getEpochOfBlock, hblock, hcompare]
      | gt =>
          rw [lastUpTo_of_gt (hfirst.trans (congrArg _ hcompare))]
          simp [lastBlockInEpoch, getEpochOfBlock, hblock, hcompare]
      | eq =>
          have hequal := hfirst.trans (congrArg Except.ok hcompare)
          cases hnext : client.hash (n + 1) with
          | none =>
              rw [lastUpTo, hequal]
              simp [lastBlockInEpoch, anyBlockInEpoch, getEpochOfBlock, hblock, hcompare, hnext,
                hlimit]
          | some next =>
              rw [lastUpTo_of_next hequal hlimit
                ((compares_anyBlockInEpoch client epochOf epoch).block _ next hnext)]
              simp only [lastBlockInEpoch, getEpochOfBlock, hblock, hcompare, hnext, ok_bind]
              cases compare (epochOf next).toNat epoch.toNat <;> rfl

section LastBlock

variable (hepochs : (client.blocks.drop 1).Pairwise fun block next =>
  epochOf block ≤ epochOf next)

include hepochs

theorem epochOf_le (hm : 1 ≤ m) (hmn : m ≤ n) (hblock : client.hash m = some block)
    (hnext : client.hash n = some next) : epochOf block ≤ epochOf next := by
  rcases Nat.lt_or_eq_of_le hmn with hlt | rfl
  · exact rel_of_hash (R := fun block next => epochOf block ≤ epochOf next) hepochs hm hlt hblock
      hnext
  · rw [hblock] at hnext
    rw [Option.some.inj hnext]
    exact UInt64.le_refl _

/-- With a later epoch, every block of an epoch is followed by another one. -/
theorem lt_bestNumber_of_later {later : ℕ}
    (hlater : client.HasBlock (fun block => epoch < epochOf block) later)
    (hequal : client.anyBlockInEpoch epochOf epoch n = .ok .eq) : n < client.bestNumber := by
  obtain ⟨hone, next, hnext, hepoch⟩ := hlater
  obtain ⟨block, hblock, hcompare⟩ :=
    (compares_anyBlockInEpoch client epochOf epoch).eq_iff.mp hequal
  obtain rfl := UInt64.toNat_inj.mp (compare_eq_iff_eq.mp hcompare)
  by_contra hnot
  have hle : later ≤ n := (le_bestNumber hnext).trans (Nat.le_of_not_lt hnot)
  exact UInt64.not_lt.mpr (epochOf_le hepochs hone hle hnext hblock) hepoch

theorem locates_lastBlockInEpoch_of_later {later : ℕ} (hbest : client.bestNumber + 1 < 2 ^ 31)
    (hlater : client.HasBlock (fun block => epoch < epochOf block) later) :
    client.Locates (client.lastBlockInEpoch epochOf epoch) fun n =>
      IsGreatest { n | client.HasBlock (fun block => epochOf block = epoch) n } n := by
  have hcompares := compares_anyBlockInEpoch client epochOf epoch
  have hordered := ordered_anyBlockInEpoch hepochs epoch
  have hnext : NextSucceeds (client.anyBlockInEpoch epochOf epoch) (client.bestNumber + 2) 1
      (client.bestNumber + 1) := by
    intro n hn _ hequal _
    have hlt := lt_bestNumber_of_later hepochs hlater hequal
    exact hordered.succeeds (n + 1) (by omega) (by omega)
  have hblocks : { n | client.HasBlock (fun block => epochOf block = epoch) n } =
      { n | 1 ≤ n ∧ n < client.bestNumber + 1 ∧
        client.anyBlockInEpoch epochOf epoch n = .ok .eq } :=
    Set.ext fun n => hasBlock_iff hcompares fun block =>
      compare_eq_iff_eq.trans UInt64.toNat_inj
  rw [funext lastBlockInEpoch_eq]
  refine locates_of_ordered hbest (hordered.lastUpTo hnext) ?_ fun n => ?_
  · obtain ⟨error, herror⟩ :=
      hcompares.missing _ (hash_eq_none (Nat.lt_succ_self client.bestNumber))
    rw [lastUpTo_of_error herror]
    simp
  · rw [hblocks]
    constructor
    · intro hgreatest
      obtain ⟨hn, hstop, hequal⟩ := hgreatest.1
      have hlt := lt_bestNumber_of_later hepochs hlater hequal
      exact ⟨hn, hstop, (hordered.lastUpTo_eq_iff hn (by omega) (by omega)).mpr hgreatest⟩
    · rintro ⟨hn, hstop, hlast⟩
      have hequal := ((lastUpTo_eq_ok_iff hnext hn hstop).2.1.mp hlast).1
      have hlt := lt_bestNumber_of_later hepochs hlater hequal
      exact (hordered.lastUpTo_eq_iff hn (by omega) (by omega)).mp hlast

omit hepochs in
/-- Without a later epoch, no block of the epoch is known to be its last one. -/
theorem locates_lastBlockInEpoch_of_not_later (hbest : client.bestNumber + 1 < 2 ^ 31)
    (hlater : ∀ later, ¬ client.HasBlock (fun block => epoch < epochOf block) later) :
    client.Locates (client.lastBlockInEpoch epochOf epoch) fun _ => False := by
  have hcompares := compares_anyBlockInEpoch client epochOf epoch
  have hnot : ∀ n ordering, 1 ≤ n → client.anyBlockInEpoch epochOf epoch n = .ok ordering →
      ordering ≠ .gt := by
    rintro n _ hn hcompare rfl
    cases hblock : client.hash n with
    | none =>
        obtain ⟨error, herror⟩ := hcompares.missing n hblock
        rw [herror] at hcompare
        cases hcompare
    | some block =>
        rw [hcompares.block n block hblock, Except.ok.injEq, compare_gt_iff_gt] at hcompare
        exact hlater n ⟨hn, block, hblock, UInt64.lt_iff_toNat_lt.mpr hcompare⟩
  refine locates_iff.mpr ⟨by omega, none, bisects_none (by omega) fun n hn _ => ?_, fun _ => id⟩
  rw [lastBlockInEpoch_eq]
  cases hcompare : client.anyBlockInEpoch epochOf epoch n with
  | error error => exact .inr ⟨error, lastUpTo_of_error hcompare⟩
  | ok ordering =>
      cases ordering with
      | lt => exact .inl (lastUpTo_of_lt hcompare)
      | gt => exact absurd rfl (hnot n _ hn hcompare)
      | eq =>
          have hlimit : n < client.bestNumber + 2 := by omega
          cases hnext : client.anyBlockInEpoch epochOf epoch (n + 1) with
          | error error => exact .inr ⟨error, lastUpTo_of_next_error hcompare hlimit hnext⟩
          | ok next =>
              rw [lastUpTo_of_next hcompare hlimit hnext,
                if_neg (hnot (n + 1) next (by omega) hnext)]
              exact .inl rfl

end LastBlock

/-! ## Chains of fewer than 2³¹ blocks -/

/-- Slots increase along the chain and epochs do not decrease. -/
structure InOrder (client : Client Block) (slotOf : Block → ScSlotNumber)
    (epochOf : Block → ScEpochNumber) : Prop where
  slots : (client.blocks.drop 1).Pairwise fun block next => slotOf block < slotOf next
  epochs : (client.blocks.drop 1).Pairwise fun block next => epochOf block ≤ epochOf next

/-- A block of the epoch or of the range is found exactly if there is one, and the last block of
an epoch exactly if there is one and a block of a later epoch. -/
theorem searches_complete (horder : client.InOrder slotOf epochOf)
    (hbest : client.bestNumber + 1 < 2 ^ 31) (epoch : ScEpochNumber) (slotRange : SlotRange) :
    client.Locates (client.anyBlockInEpoch epochOf epoch)
        (client.HasBlock fun block => epochOf block = epoch) ∧
      client.Locates (client.anyBlockInSlotRange slotOf slotRange)
        (client.HasBlock fun block =>
          slotRange.start ≤ slotOf block ∧ slotOf block < slotRange.stop) ∧
      client.Locates (client.lastBlockInEpoch epochOf epoch) fun n =>
        IsGreatest { n | client.HasBlock (fun block => epochOf block = epoch) n } n ∧
          ∃ later, client.HasBlock (fun block => epoch < epochOf block) later := by
  have hinEpoch := compares_anyBlockInEpoch client epochOf epoch
  have hinRange := compares_anyBlockInSlotRange client slotOf slotRange
  refine ⟨?_, ?_, ?_⟩
  · exact locates_of_ordered hbest (ordered_anyBlockInEpoch horder.epochs epoch) hinEpoch.last_ne
      fun n => hasBlock_iff hinEpoch fun block => compare_eq_iff_eq.trans UInt64.toNat_inj
  · exact locates_of_ordered hbest (ordered_anyBlockInSlotRange horder.slots slotRange)
      hinRange.last_ne fun n => hasBlock_iff hinRange fun block => compareSlot_eq_eq_iff
  · by_cases hlater : ∃ later, client.HasBlock (fun block => epoch < epochOf block) later
    · simp only [hlater, and_true]
      obtain ⟨later, hlater⟩ := hlater
      exact locates_lastBlockInEpoch_of_later horder.epochs hbest hlater
    · simp only [hlater, and_false]
      exact locates_lastBlockInEpoch_of_not_later hbest (not_exists.mp hlater)

/-- A chain of blocks that are their own numbers. -/
def numbers (best : ℕ) : Client ℕ := ⟨List.range best, best⟩

theorem searches_complete_of_six_blocks :
    (numbers 5).Locates ((numbers 5).anyBlockInEpoch (fun n => .ofNat (n / 2)) 1)
        ((numbers 5).HasBlock fun n => UInt64.ofNat (n / 2) = 1) ∧
      (numbers 5).Locates ((numbers 5).anyBlockInSlotRange .ofNat ⟨2, 4⟩)
        ((numbers 5).HasBlock fun n => 2 ≤ UInt64.ofNat n ∧ UInt64.ofNat n < 4) ∧
      (numbers 5).Locates ((numbers 5).lastBlockInEpoch (fun n => .ofNat (n / 2)) 1) fun n =>
        IsGreatest { n | (numbers 5).HasBlock (fun n => UInt64.ofNat (n / 2) = 1) n } n ∧
          ∃ later, (numbers 5).HasBlock (fun n => 1 < UInt64.ofNat (n / 2)) later :=
  searches_complete ⟨by decide, by decide⟩ (by decide) 1 ⟨2, 4⟩

/-! ## Longer chains -/

theorem bestNumber_numbers (best : ℕ) : (numbers best).bestNumber = best := List.length_range

theorem blocks_numbers (best : ℕ) : (numbers best).blocks = List.range (best + 1) :=
  List.range_succ.symm

variable {best : ℕ}

theorem hash_numbers (h : n ≤ best) : (numbers best).hash n = some n := by
  rw [hash, blocks_numbers]
  exact List.getElem?_range (Nat.lt_succ_of_le h)

/-- The second epoch starts with block 2³¹. -/
def lateEpoch (n : ℕ) : ScEpochNumber := if n < 2 ^ 31 then 0 else 1

theorem inOrder_numbers (h : best < 2 ^ 64) :
    (numbers best).InOrder .ofNat lateEpoch := by
  have hlt : ((numbers best).blocks.drop 1).Pairwise fun m n => m < n ∧ n < 2 ^ 64 := by
    rw [blocks_numbers]
    refine List.Pairwise.drop (List.Pairwise.imp_of_mem (fun _ hn hlt => ⟨hlt, ?_⟩)
      List.pairwise_lt_range)
    have hle := List.mem_range.mp hn
    omega
  constructor
  · refine hlt.imp fun ⟨hlt, hbound⟩ => ?_
    rw [UInt64.lt_iff_toNat_lt, UInt64.toNat_ofNat_of_lt' hbound,
      UInt64.toNat_ofNat_of_lt' (hlt.trans hbound)]
    exact hlt
  · refine hlt.imp fun {m n} ⟨hlt, _⟩ => ?_
    unfold lateEpoch
    split_ifs with hm hn hn
    · decide
    · decide
    · omega
    · decide

/-- The window of the search reaches ends that add up to 2³² or more. -/
theorem not_locates_lateEpoch (steps : ℕ) (hbest : 2 ^ 31 ≤ best + 1)
    (hend : lowEnd 1 (best + 1) steps = 2 ^ 31) :
    ¬ (numbers best).Locates ((numbers best).anyBlockInEpoch lateEpoch 1) Wanted := by
  intro h
  obtain ⟨_, result, hbisects, _⟩ := locates_iff.mp h
  rw [bestNumber_numbers] at hbisects
  have hsum := hbisects.sumsFit steps
  rw [hend] at hsum
  have hless : ∀ n, 1 ≤ n → n < 2 ^ 31 →
      (numbers best).anyBlockInEpoch lateEpoch 1 n = .ok .lt := by
    intro n _ hlt
    rw [(compares_anyBlockInEpoch (numbers best) lateEpoch 1).block n n (hash_numbers (by omega)),
      lateEpoch, if_pos hlt]
    rfl
  have hlt := hsum hless hbest
  omega

/-- The first block of the second epoch is not found in a chain that ends with it, and the search
for an epoch without blocks does not end properly in the chain before. -/
theorem searches_of_long_chains_incomplete :
    ((numbers (2 ^ 31)).InOrder .ofNat lateEpoch ∧
      (numbers (2 ^ 31)).HasBlock (fun n => lateEpoch n = 1) (2 ^ 31) ∧
      ¬ (numbers (2 ^ 31)).Locates ((numbers (2 ^ 31)).anyBlockInEpoch lateEpoch 1)
        ((numbers (2 ^ 31)).HasBlock fun n => lateEpoch n = 1)) ∧
    (numbers (2 ^ 31 - 1)).InOrder .ofNat lateEpoch ∧
      ¬ (numbers (2 ^ 31 - 1)).Locates ((numbers (2 ^ 31 - 1)).anyBlockInEpoch lateEpoch 1)
        ((numbers (2 ^ 31 - 1)).HasBlock fun n => lateEpoch n = 1) := by
  refine ⟨⟨inOrder_numbers (by norm_num), ⟨by norm_num, _, hash_numbers le_rfl, ?_⟩, ?_⟩,
    inOrder_numbers (by norm_num), ?_⟩
  · exact if_neg (lt_irrefl _)
  · exact not_locates_lateEpoch 30 (by norm_num) (by norm_num [lowEnd])
  · exact not_locates_lateEpoch 31 (by norm_num) (by norm_num [lowEnd])

end PartnerChains.BlockSearch.Client
