import Mathlib

/-!
# Maps with their entries in the order of the keys

The keys of the entries strictly ascend, so that a map is determined by what is found under its
keys.
-/

namespace PartnerChains

structure OrderedMap (κ ν : Type*) [LinearOrder κ] where
  entries : List (κ × ν)
  ascending : entries.Pairwise fun a b => a.1 < b.1
  deriving DecidableEq

namespace OrderedMap

variable {κ ν : Type*} [LinearOrder κ]

/-! ## Entries -/

def lookupEntry (key : κ) : List (κ × ν) → Option ν
  | [] => none
  | (other, value) :: entries => if other = key then some value else lookupEntry key entries

def insertEntry (key : κ) (value : ν) : List (κ × ν) → List (κ × ν)
  | [] => [(key, value)]
  | (other, stored) :: entries =>
      if key < other then (key, value) :: (other, stored) :: entries
      else if key = other then (key, value) :: entries
      else (other, stored) :: insertEntry key value entries

variable {entries : List (κ × ν)}

theorem mem_insertEntry {key : κ} {value : ν} {entry : κ × ν}
    (h : entry ∈ insertEntry key value entries) : entry = (key, value) ∨ entry ∈ entries := by
  induction entries with
  | nil => exact .inl (List.mem_singleton.mp h)
  | cons first entries ih =>
      rw [insertEntry] at h
      split_ifs at h
      · exact List.mem_cons.mp h
      · rcases List.mem_cons.mp h with hfirst | hrest
        · exact .inl hfirst
        · exact .inr (List.mem_cons_of_mem _ hrest)
      · rcases List.mem_cons.mp h with hfirst | hrest
        · exact .inr (hfirst ▸ List.mem_cons_self)
        · exact (ih hrest).imp_right (List.mem_cons_of_mem _)

theorem insertEntry_ascending (key : κ) (value : ν) (h : entries.Pairwise fun a b => a.1 < b.1) :
    (insertEntry key value entries).Pairwise fun a b => a.1 < b.1 := by
  induction entries with
  | nil => exact List.pairwise_singleton _ _
  | cons first entries ih =>
      obtain ⟨hfirst, hrest⟩ := List.pairwise_cons.mp h
      rw [insertEntry]
      split_ifs with hlt heq
      · refine List.pairwise_cons.mpr ⟨fun entry hentry => ?_, h⟩
        rcases List.mem_cons.mp hentry with rfl | hmem
        · exact hlt
        · exact hlt.trans (hfirst entry hmem)
      · exact List.pairwise_cons.mpr ⟨fun entry hentry => heq ▸ hfirst entry hentry, hrest⟩
      · refine List.pairwise_cons.mpr ⟨fun entry hentry => ?_, ih hrest⟩
        rcases mem_insertEntry hentry with rfl | hmem
        · exact lt_of_le_of_ne (not_lt.mp hlt) (Ne.symm heq)
        · exact hfirst entry hmem

theorem lookupEntry_insertEntry (key : κ) (value : ν) (entries : List (κ × ν)) (other : κ) :
    lookupEntry other (insertEntry key value entries) =
      if other = key then some value else lookupEntry other entries := by
  induction entries with
  | nil =>
      by_cases h : key = other
      · simp [insertEntry, lookupEntry, h]
      · simp [insertEntry, lookupEntry, h, Ne.symm h]
  | cons first entries ih =>
      obtain ⟨firstKey, stored⟩ := first
      by_cases h : other = key
      · subst h
        by_cases hlt : other < firstKey
        · simp [insertEntry, lookupEntry, hlt]
        · by_cases heq : other = firstKey
          · simp [insertEntry, lookupEntry, heq]
          · simp [insertEntry, lookupEntry, hlt, heq, Ne.symm heq, ih]
      · by_cases hlt : key < firstKey
        · simp [insertEntry, lookupEntry, hlt, h, Ne.symm h]
        · by_cases heq : key = firstKey
          · subst heq
            simp [insertEntry, lookupEntry, h, Ne.symm h]
          · simp [insertEntry, lookupEntry, hlt, heq, h, ih]

/-- Of two insertions under a key, the later one counts. -/
theorem insertEntry_insertEntry (key : κ) (value value' : ν) (entries : List (κ × ν)) :
    insertEntry key value' (insertEntry key value entries) = insertEntry key value' entries := by
  induction entries with
  | nil => simp [insertEntry]
  | cons first entries ih =>
      obtain ⟨firstKey, stored⟩ := first
      by_cases hlt : key < firstKey
      · simp [insertEntry, hlt]
      · by_cases heq : key = firstKey
        · simp [insertEntry, heq]
        · simp [insertEntry, hlt, heq, ih]

theorem mem_iff_lookupEntry {key : κ} {value : ν} (h : entries.Pairwise fun a b => a.1 < b.1) :
    (key, value) ∈ entries ↔ lookupEntry key entries = some value := by
  induction entries with
  | nil => simp [lookupEntry]
  | cons first entries ih =>
      obtain ⟨firstKey, stored⟩ := first
      obtain ⟨hfirst, hrest⟩ := List.pairwise_cons.mp h
      rw [List.mem_cons, ih hrest, lookupEntry]
      by_cases hkey : firstKey = key
      · -- no later entry has the key
        have hnone : ¬ lookupEntry key entries = some value := fun hlookup =>
          (hkey ▸ hfirst _ ((ih hrest).mpr hlookup)).false
        simp [hkey, hnone, eq_comm]
      · simp [hkey, Ne.symm hkey]

theorem lookupEntry_isSome_iff {key : κ} :
    (lookupEntry key entries).isSome ↔ key ∈ entries.map Prod.fst := by
  induction entries with
  | nil => simp [lookupEntry]
  | cons first entries ih =>
      obtain ⟨firstKey, stored⟩ := first
      by_cases hkey : firstKey = key
      · simp [lookupEntry, hkey]
      · simp [lookupEntry, hkey, Ne.symm hkey, ih]

/-! ## Maps -/

variable {map map' : OrderedMap κ ν} {key : κ} {value : ν}

def empty : OrderedMap κ ν := ⟨[], .nil⟩

def get? (map : OrderedMap κ ν) (key : κ) : Option ν := lookupEntry key map.entries

def insert (map : OrderedMap κ ν) (key : κ) (value : ν) : OrderedMap κ ν :=
  ⟨insertEntry key value map.entries, insertEntry_ascending key value map.ascending⟩

@[simp]
theorem get?_empty (key : κ) : (empty : OrderedMap κ ν).get? key = none := rfl

theorem get?_insert (map : OrderedMap κ ν) (key : κ) (value : ν) (other : κ) :
    (map.insert key value).get? other = if other = key then some value else map.get? other :=
  lookupEntry_insertEntry key value map.entries other

def insertAll (map : OrderedMap κ ν) (entries : List (κ × ν)) : OrderedMap κ ν :=
  entries.foldl (fun map entry => map.insert entry.1 entry.2) map

theorem get?_insertAll (h : (entries.map Prod.fst).Nodup) (map : OrderedMap κ ν) (key : κ) :
    (map.insertAll entries).get? key = (lookupEntry key entries).or (map.get? key) := by
  induction entries generalizing map with
  | nil => rfl
  | cons first entries ih =>
      obtain ⟨firstKey, stored⟩ := first
      obtain ⟨hfirst, hrest⟩ := List.nodup_cons.mp h
      refine (ih hrest (map.insert firstKey stored)).trans ?_
      rw [get?_insert, lookupEntry]
      by_cases hkey : firstKey = key
      · -- no later entry has the key
        have hnone : lookupEntry key entries = none := by
          rw [← Option.not_isSome_iff_eq_none, lookupEntry_isSome_iff, ← hkey]
          exact hfirst
        simp [hkey, hnone]
      · simp [hkey, Ne.symm hkey]

/-- Move all entries of another map into this one. -/
def append (map other : OrderedMap κ ν) : OrderedMap κ ν := map.insertAll other.entries

theorem mem_entries_iff : (key, value) ∈ map.entries ↔ map.get? key = some value :=
  mem_iff_lookupEntry map.ascending

theorem nodup_keys (map : OrderedMap κ ν) : (map.entries.map Prod.fst).Nodup :=
  List.pairwise_map.mpr (map.ascending.imp ne_of_lt)

theorem nodup_entries (map : OrderedMap κ ν) : map.entries.Nodup := map.nodup_keys.of_map _

theorem get?_append (map other : OrderedMap κ ν) (key : κ) :
    (map.append other).get? key = (other.get? key).or (map.get? key) :=
  get?_insertAll other.nodup_keys map key

/-- Maps that give the same under every key are equal. -/
theorem ext_get? (h : ∀ key, map.get? key = map'.get? key) : map = map' := by
  have hperm : map.entries.Perm map'.entries :=
    (List.perm_ext_iff_of_nodup map.nodup_entries map'.nodup_entries).mpr fun entry => by
      rw [mem_entries_iff, mem_entries_iff, h]
  have hentries : map.entries = map'.entries :=
    hperm.eq_of_pairwise (fun a b _ _ hab hba => (hab.trans hba).false.elim) map.ascending
      map'.ascending
  cases map
  cases map'
  simpa using hentries

end OrderedMap

end PartnerChains
