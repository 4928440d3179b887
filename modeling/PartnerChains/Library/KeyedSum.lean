import Mathlib

/-!
# Sums over the values of a finite map

A change of one entry changes the sum by the weight of that entry only.
-/

namespace PartnerChains.KeyedSum

variable {κ β : Type*} [DecidableEq κ] {map : AList fun _ : κ => β} {key : κ} {value : β}

/-- The sum of the weights of all values. -/
def total (weight : β → ℕ) (map : AList fun _ : κ => β) : ℕ :=
  (map.entries.map fun entry => weight entry.2).sum

variable (weight : β → ℕ)

omit [DecidableEq κ] in
@[simp]
theorem total_empty : total weight (∅ : AList fun _ : κ => β) = 0 := rfl

theorem total_erase (h : map.lookup key = some value) :
    total weight map = weight value + total weight (map.erase key) := by
  have hmem : key ∈ map.entries.keys := by
    rw [← List.dlookup_isSome]
    exact Option.isSome_of_mem h
  obtain ⟨found, front, rest, hfront, hentries, herase⟩ := List.exists_of_kerase hmem
  have hvalue : found = value := by
    have hfound : ⟨key, found⟩ ∈ map.entries := by simp [hentries]
    exact Option.some.inj ((List.mem_dlookup map.nodupKeys hfound).symm.trans h)
  change (map.entries.map _).sum = _ + ((map.entries.kerase key).map _).sum
  rw [herase, hentries, hvalue]
  simp only [List.map_append, List.map_cons, List.sum_append, List.sum_cons]
  omega

theorem total_insert (key : κ) (value : β) :
    total weight (map.insert key value) = weight value + total weight (map.erase key) := by
  simp [total, AList.erase]

theorem total_insert_new (h : map.lookup key = none) (value : β) :
    total weight (map.insert key value) = weight value + total weight map := by
  have hnot : key ∉ map := AList.lookup_eq_none.mp h
  rw [total, AList.entries_insert_of_notMem hnot]
  simp [total]

/-- Replacing a value by one of the same weight keeps the sum. -/
theorem total_insert_same (h : map.lookup key = some value) {value' : β}
    (hweight : weight value' = weight value) :
    total weight (map.insert key value') = total weight map := by
  rw [total_insert, hweight, total_erase weight h]

/-- An entry that counts from zero adds to the sum what is added to it. -/
theorem total_insert_add {counts : AList fun _ : κ => ℕ} (key : κ) (amount : ℕ) :
    total id (counts.insert key ((counts.lookup key).getD 0 + amount)) =
      total id counts + amount := by
  cases hlookup : counts.lookup key with
  | none =>
      rw [total_insert_new id hlookup]
      simp [Nat.add_comm]
  | some count =>
      rw [total_insert, total_erase id hlookup]
      simp only [id_eq, Option.getD_some]
      omega

end PartnerChains.KeyedSum
