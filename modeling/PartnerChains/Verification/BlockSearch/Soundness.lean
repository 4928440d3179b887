import PartnerChains.Algorithm.BlockSearch

/-! # What a search for a block finds -/

namespace PartnerChains.BlockSearch

open Fallible

variable {overflowChecks : Bool}

/-- The search may miss a block, but what it finds compares equal. -/
theorem binarySearchBy_sound {ε : Type} {bits : ℕ} {f : ℕ → Except ε Ordering}
    {fuel left right number : ℕ}
    (h : binarySearchBy overflowChecks bits f fuel left right = .ok (some number)) :
    f number = .ok .eq := by
  induction fuel generalizing left right with
  | zero => cases h
  | succ fuel ih =>
      unfold binarySearchBy at h
      split_ifs at h with hle
      · obtain ⟨sum, -, h⟩ := bind_eq_ok_iff.mp h
        cases hcompare : f (sum / 2) with
        | error error => simp [hcompare] at h
        | ok ordering =>
            cases ordering with
            | eq =>
                simp only [hcompare, Except.ok.injEq, Option.some.injEq] at h
                rw [← h, hcompare]
            | lt =>
                simp only [hcompare] at h
                obtain ⟨middle, -, h⟩ := bind_eq_ok_iff.mp h
                exact ih h
            | gt =>
                simp only [hcompare] at h
                obtain ⟨middle, -, h⟩ := bind_eq_ok_iff.mp h
                exact ih h
      · cases h

namespace Client

variable {Block : Type} {client : Client Block} {epochOf : Block → ScEpochNumber}

theorem hash_bestNumber : client.hash client.bestNumber = some client.best := by
  simp [hash, blocks, bestNumber]

theorem blocks_eq_cons : client.blocks = client.genesis :: client.blocks.drop 1 := by
  unfold blocks genesis
  cases client.ancestors <;> rfl

theorem getEpochOfBlock_eq_ok {blockNumber : ℕ} {epoch : ScEpochNumber}
    (h : client.getEpochOfBlock epochOf blockNumber = .ok epoch) :
    ∃ block, client.hash blockNumber = some block ∧ epochOf block = epoch := by
  unfold getEpochOfBlock at h
  cases hblock : client.hash blockNumber with
  | none => simp [hblock] at h
  | some block =>
      rw [hblock] at h
      exact ⟨block, rfl, Except.ok.inj h⟩

theorem findBlockNumber_sound {fuel number : ℕ} {compareBlock : ℕ → Except ApiError Ordering}
    (h : client.findBlockNumber overflowChecks fuel compareBlock = .ok number) :
    compareBlock number = .ok .eq := by
  unfold findBlockNumber at h
  obtain ⟨right, -, h⟩ := bind_eq_ok_iff.mp h
  obtain ⟨found, hfound, h⟩ := bind_eq_ok_iff.mp h
  cases found with
  | none => cases h
  | some found =>
      rw [← Except.ok.inj h]
      exact binarySearchBy_sound (mapError_eq_ok_iff.mp hfound)

theorem findBlock_anyBlockInEpoch {fuel : ℕ} {epoch : ScEpochNumber} {block : Block}
    (h : client.findBlock overflowChecks fuel (client.anyBlockInEpoch epochOf epoch) =
      .ok block) : block ∈ client.blocks ∧ epochOf block = epoch := by
  unfold findBlock at h
  obtain ⟨number, hnumber, h⟩ := bind_eq_ok_iff.mp h
  have hcompare := findBlockNumber_sound hnumber
  unfold anyBlockInEpoch at hcompare
  obtain ⟨found, hepoch, hequal⟩ := bind_eq_ok_iff.mp hcompare
  obtain ⟨stored, hstored, hfound⟩ := getEpochOfBlock_eq_ok hepoch
  rw [hstored] at h
  rw [← Except.ok.inj h]
  refine ⟨List.mem_of_getElem? hstored, ?_⟩
  rw [hfound]
  exact UInt64.toNat_inj.mp (compare_eq_iff_eq.mp (Except.ok.inj hequal))

end Client

end PartnerChains.BlockSearch
