import Mathlib

/-!
# Caches that drop entries

A cache is used through `get` and `put`. It may drop entries at any time, but what it has was put
there. A list that drops the least recently used entry is such a cache.
-/

namespace PartnerChains

/-- A cache for all types of keys and values. Looking a value up may change the cache. -/
class LruCache (L : Type → Type → Type) where
  new {κ ν : Type} (capacity : ℕ) (positive : 0 < capacity) : L κ ν
  get {κ ν : Type} [DecidableEq κ] (cache : L κ ν) (key : κ) : Option ν × L κ ν
  put {κ ν : Type} [DecidableEq κ] (cache : L κ ν) (key : κ) (value : ν) : L κ ν
  Holds {κ ν : Type} (cache : L κ ν) (key : κ) (value : ν) : Prop
  not_holds_new {κ ν : Type} {capacity : ℕ} (positive : 0 < capacity) (key : κ) (value : ν) :
    ¬Holds (new capacity positive) key value
  holds_of_get {κ ν : Type} [DecidableEq κ] {cache : L κ ν} {key : κ} {value : ν} :
    (get cache key).1 = some value → Holds cache key value
  holds_of_holds_get {κ ν : Type} [DecidableEq κ] {cache : L κ ν} {key other : κ} {value : ν} :
    Holds (get cache key).2 other value → Holds cache other value
  holds_put {κ ν : Type} [DecidableEq κ] {cache : L κ ν} {key other : κ} {value stored : ν} :
    Holds (put cache key value) other stored →
      (other = key ∧ stored = value) ∨ Holds cache other stored

namespace LruCache

variable {L : Type → Type → Type} [LruCache L] {κ ν : Type}

/-- Every entry of the cache has the property. -/
def Forall (cache : L κ ν) (P : κ → ν → Prop) : Prop :=
  ∀ key value, Holds cache key value → P key value

variable {cache : L κ ν} {P Q : κ → ν → Prop} {key : κ} {value : ν}

theorem forall_new {capacity : ℕ} (positive : 0 < capacity) :
    Forall (new capacity positive : L κ ν) P :=
  fun key value h => absurd h (not_holds_new positive key value)

theorem Forall.mono (h : Forall cache P) (hPQ : ∀ key value, P key value → Q key value) :
    Forall cache Q :=
  fun key value hentry => hPQ key value (h key value hentry)

variable [DecidableEq κ]

theorem Forall.of_get (h : Forall cache P) (hget : (get cache key).1 = some value) :
    P key value :=
  h key value (holds_of_get hget)

theorem Forall.get (h : Forall cache P) (key : κ) : Forall (get cache key).2 P :=
  fun other value hentry => h other value (holds_of_holds_get hentry)

theorem Forall.put (h : Forall cache P) (hnew : P key value) : Forall (put cache key value) P := by
  intro other stored hentry
  rcases holds_put hentry with ⟨rfl, rfl⟩ | hold
  · exact hnew
  · exact h other stored hold

end LruCache

/-! ## A list of entries -/

/-- The entries are listed from the most to the least recently used one. -/
structure RecentlyUsed (κ ν : Type) where
  capacity : ℕ
  entries : List (κ × ν)
  length_le : entries.length ≤ capacity

namespace RecentlyUsed

variable {κ ν : Type} [DecidableEq κ]

def others (cache : RecentlyUsed κ ν) (key : κ) : List (κ × ν) :=
  cache.entries.filter fun entry => decide (entry.1 ≠ key)

/-- A value that is found becomes the most recently used one. -/
def get (cache : RecentlyUsed κ ν) (key : κ) : Option ν × RecentlyUsed κ ν :=
  match h : cache.entries.find? fun entry => decide (entry.1 = key) with
  | none => (none, cache)
  | some entry => (some entry.2, { cache with
      entries := entry :: cache.others entry.1
      length_le := by
        have hlt : (cache.others entry.1).length < cache.entries.length :=
          List.length_filter_lt_length_iff_exists.mpr
            ⟨entry, List.mem_of_find?_eq_some h, by simp⟩
        exact (Nat.succ_le_of_lt hlt).trans cache.length_le })

def put (cache : RecentlyUsed κ ν) (key : κ) (value : ν) : RecentlyUsed κ ν :=
  { cache with
    entries := ((key, value) :: cache.others key).take cache.capacity
    length_le := List.length_take_le _ _ }

variable {cache : RecentlyUsed κ ν} {key : κ} {value : ν}

theorem mem_of_get (h : (cache.get key).1 = some value) : (key, value) ∈ cache.entries := by
  unfold get at h
  split at h
  · cases h
  · rename_i entry hfind
    have hkey : entry.1 = key := by simpa using List.find?_some hfind
    rw [← hkey, ← Option.some.inj h]
    exact List.mem_of_find?_eq_some hfind

theorem mem_of_mem_get {entry : κ × ν} (h : entry ∈ (cache.get key).2.entries) :
    entry ∈ cache.entries := by
  unfold get at h
  split at h
  · exact h
  · rename_i found hfind
    rcases List.mem_cons.mp h with rfl | hrest
    · exact List.mem_of_find?_eq_some hfind
    · exact List.mem_of_mem_filter hrest

theorem mem_put {other : κ} {stored : ν} (h : (other, stored) ∈ (cache.put key value).entries) :
    (other = key ∧ stored = value) ∨ (other, stored) ∈ cache.entries := by
  rcases List.mem_cons.mp (List.mem_of_mem_take h) with hfirst | hrest
  · exact .inl (Prod.mk.inj hfirst)
  · exact .inr (List.mem_of_mem_filter hrest)

instance : LruCache RecentlyUsed where
  new capacity _ := ⟨capacity, [], Nat.zero_le _⟩
  get := get
  put := put
  Holds cache key value := (key, value) ∈ cache.entries
  not_holds_new _ _ _ := List.not_mem_nil
  holds_of_get := mem_of_get
  holds_of_holds_get := mem_of_mem_get
  holds_put := mem_put

end RecentlyUsed

end PartnerChains
