import PartnerChains.Library.Fallible
import Mathlib.Data.List.AList

/-! # Maps that are filled entry by entry -/

namespace PartnerChains.KeyedMap

variable {κ α β ε : Type} [DecidableEq κ]

/-- An entry is converted and inserted. -/
def insertM (convert : κ → α → Except ε β) (map : AList fun _ : κ => β) (entry : Σ _ : κ, α) :
    Except ε (AList fun _ : κ => β) := do
  let value ← convert entry.1 entry.2
  .ok (map.insert entry.1 value)

def insertAllM (convert : κ → α → Except ε β) (entries : List (Σ _ : κ, α)) :
    Except ε (AList fun _ : κ => β) :=
  entries.foldlM (insertM convert) ∅

private theorem lookup_foldlM {convert : κ → α → Except ε β} (key : κ)
    (entries : List (Σ _ : κ, α)) (hnodup : entries.NodupKeys)
    (start map : AList fun _ : κ => β)
    (h : entries.foldlM (insertM convert) start = .ok map) :
    (∀ value, entries.dlookup key = some value → ∃ converted,
      convert key value = .ok converted ∧ map.lookup key = some converted) ∧
    (entries.dlookup key = none → map.lookup key = start.lookup key) := by
  -- an inserted key is not met again, so that later entries leave it as it is
  induction entries generalizing start with
  | nil =>
      obtain rfl : start = map := by simpa using h
      simp
  | cons entry entries ih =>
      obtain ⟨first, value⟩ := entry
      obtain ⟨hnew, hnodup⟩ := List.nodupKeys_cons.mp hnodup
      rw [List.foldlM_cons] at h
      obtain ⟨next, hnext, h⟩ := Fallible.bind_eq_ok_iff.mp h
      obtain ⟨converted, hconvert, hnext⟩ := Fallible.bind_eq_ok_iff.mp hnext
      obtain rfl := Except.ok.inj hnext
      obtain ⟨hsome, hnone⟩ := ih hnodup _ h
      by_cases hkey : key = first
      · subst hkey
        have hlast := hnone (List.dlookup_eq_none.mpr hnew)
        rw [AList.lookup_insert] at hlast
        rw [List.dlookup_cons_eq]
        refine ⟨fun value' hvalue => ?_, fun habsent => nomatch habsent⟩
        obtain rfl := Option.some.inj hvalue
        exact ⟨converted, hconvert, hlast⟩
      · rw [List.dlookup_cons_ne _ _ hkey]
        rw [AList.lookup_insert_ne hkey] at hnone
        exact ⟨hsome, hnone⟩

/-- A filled map has the converted values under their keys. -/
theorem lookup_insertAllM {convert : κ → α → Except ε β} {source : AList fun _ : κ => α}
    {map : AList fun _ : κ => β} (h : insertAllM convert source.entries = .ok map) (key : κ) :
    (∀ value, source.lookup key = some value → ∃ converted,
      convert key value = .ok converted ∧ map.lookup key = some converted) ∧
    (source.lookup key = none → map.lookup key = none) := by
  obtain ⟨hsome, hnone⟩ := lookup_foldlM key source.entries source.nodupKeys ∅ map h
  exact ⟨hsome, fun habsent => (hnone habsent).trans (AList.lookup_empty key)⟩

section InsertAll

variable {ν : Type} {entries : List (κ × ν)} {start : AList fun _ : κ => ν} {key : κ}

def insertAll (start : AList fun _ : κ => ν) (entries : List (κ × ν)) : AList fun _ : κ => ν :=
  entries.foldl (fun map entry => map.insert entry.1 entry.2) start

@[simp]
theorem insertAll_cons (entry : κ × ν) :
    insertAll start (entry :: entries) = insertAll (start.insert entry.1 entry.2) entries := rfl

theorem mem_insertAll : key ∈ insertAll start entries ↔ key ∈ start ∨ key ∈ entries.map (·.1) := by
  induction entries generalizing start with
  | nil => simp [insertAll]
  | cons entry entries ih =>
      rw [insertAll_cons, ih, AList.mem_insert, List.map_cons, List.mem_cons]
      tauto

theorem lookup_insertAll_of_notMem (h : key ∉ entries.map (·.1)) :
    (insertAll start entries).lookup key = start.lookup key := by
  induction entries generalizing start with
  | nil => rfl
  | cons entry entries ih =>
      rw [List.map_cons, List.mem_cons, not_or] at h
      rw [insertAll_cons, ih h.2, AList.lookup_insert_ne h.1]

theorem lookup_insertAll_of_mem {value : ν} (hnodup : (entries.map (·.1)).Nodup)
    (h : (key, value) ∈ entries) : (insertAll start entries).lookup key = some value := by
  induction entries generalizing start with
  | nil => cases h
  | cons entry entries ih =>
      rw [List.map_cons, List.nodup_cons] at hnodup
      rw [insertAll_cons]
      rcases List.mem_cons.mp h with rfl | hrest
      · rw [lookup_insertAll_of_notMem hnodup.1, AList.lookup_insert]
      · exact ih hnodup.2 hrest

theorem keys_insertAll_perm (hnodup : (entries.map (·.1)).Nodup) :
    (insertAll ∅ entries).keys.Perm (entries.map (·.1)) := by
  rw [List.perm_ext_iff_of_nodup (AList.keys_nodup _) hnodup]
  intro key
  rw [← AList.mem_keys, mem_insertAll]
  simp

end InsertAll

end PartnerChains.KeyedMap
