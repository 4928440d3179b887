import Mathlib

/-!
# Replaying writes to a map

A write sets a key to a value or removes it. After a list of writes, a key holds what the
last write to it says; a key that is not written keeps its value.
-/

namespace PartnerChains.LastWrite

variable {K V : Type*}

/-! ## The last write to a key -/

section LastWrite

variable [DecidableEq K] {changes : List (K × Option V)} {key : K}

/-- What the last write to a key says, if there is one. -/
def lastWrite (changes : List (K × Option V)) (key : K) : Option (Option V) :=
  (changes.filter fun change => change.1 = key).getLast?.map Prod.snd

@[simp]
theorem lastWrite_nil : lastWrite ([] : List (K × Option V)) key = none := rfl

theorem lastWrite_append_singleton (change : K × Option V) :
    lastWrite (changes ++ [change]) key =
      if change.1 = key then some change.2 else lastWrite changes key := by
  by_cases h : change.1 = key
  · simp [lastWrite, List.filter_append, h]
  · simp [lastWrite, List.filter_append, h]

theorem lastWrite_eq_none_iff :
    lastWrite changes key = none ↔ ∀ change ∈ changes, change.1 ≠ key := by
  simp [lastWrite]

theorem mem_of_lastWrite_eq_some {value : Option V} (h : lastWrite changes key = some value) :
    (key, value) ∈ changes := by
  obtain ⟨change, hchange, rfl⟩ := Option.map_eq_some_iff.mp h
  obtain ⟨hmem, hkey⟩ := List.mem_filter.mp (List.mem_of_getLast? hchange)
  rw [← of_decide_eq_true hkey]
  exact hmem

/-- When no key is written twice, the last write is the only one. -/
theorem lastWrite_eq_some_iff (hkeys : (changes.map Prod.fst).Nodup) {value : Option V} :
    lastWrite changes key = some value ↔ (key, value) ∈ changes := by
  refine ⟨mem_of_lastWrite_eq_some, fun hmem => ?_⟩
  cases hlast : lastWrite changes key with
  | none => exact absurd rfl (lastWrite_eq_none_iff.mp hlast _ hmem)
  | some value' =>
      have heq := List.inj_on_of_nodup_map hkeys (mem_of_lastWrite_eq_some hlast) hmem rfl
      rw [(Prod.mk.inj heq).2]

/-- The last write to a key is made by the last of the rows that write to it. -/
theorem lastWrite_filterMap {R : Type*} (rows : List R) (f : R → Option (K × Option V)) :
    lastWrite (rows.filterMap f) key =
      (rows.filter fun row => (f row).any (·.1 = key)).getLast?.bind fun row =>
        (f row).map Prod.snd := by
  induction rows using List.reverseRecOn with
  | nil => rfl
  | append_singleton rows row ih =>
      cases hrow : f row with
      | none => simp [List.filterMap_append, List.filter_append, hrow, ih]
      | some change =>
          rw [List.filterMap_append, List.filterMap_cons_some hrow, List.filterMap_nil,
            lastWrite_append_singleton]
          by_cases hkey : change.1 = key
          · simp [List.filter_append, hrow, hkey]
          · simp [List.filter_append, hrow, hkey, ih]

end LastWrite

/-! ## Replay -/

variable [Ord K] [Std.TransOrd K]

def write (m : Std.ExtTreeMap K V) (change : K × Option V) : Std.ExtTreeMap K V :=
  match change.2 with
  | some value => m.insert change.1 value
  | none => m.erase change.1

def replay (changes : List (K × Option V)) (m : Std.ExtTreeMap K V) : Std.ExtTreeMap K V :=
  changes.foldl write m

@[simp]
theorem replay_nil (m : Std.ExtTreeMap K V) : replay [] m = m := rfl

theorem replay_append (changes changes' : List (K × Option V)) (m : Std.ExtTreeMap K V) :
    replay (changes ++ changes') m = replay changes' (replay changes m) := by
  simp [replay]

theorem replay_append_singleton (changes : List (K × Option V)) (change : K × Option V)
    (m : Std.ExtTreeMap K V) :
    replay (changes ++ [change]) m = write (replay changes m) change :=
  replay_append changes [change] m

/-- The last write to each key. -/
def collect (changes : List (K × Option V)) : Std.ExtTreeMap K (Option V) :=
  changes.foldl (fun collected change => collected.insert change.1 change.2) ∅

theorem collect_append_singleton (changes : List (K × Option V)) (change : K × Option V) :
    collect (changes ++ [change]) = (collect changes).insert change.1 change.2 := by
  simp [collect]

theorem size_collect_le (changes : List (K × Option V)) :
    (collect changes).size ≤ changes.length := by
  induction changes using List.reverseRecOn with
  | nil => simp [collect]
  | append_singleton changes change ih =>
      rw [collect_append_singleton, List.length_append, List.length_singleton]
      exact Std.ExtTreeMap.size_insert_le.trans (Nat.add_le_add_right ih 1)

variable [Std.LawfulEqOrd K] [DecidableEq K]

theorem getElem?_write (m : Std.ExtTreeMap K V) (change : K × Option V) (key : K) :
    (write m change)[key]? = if change.1 = key then change.2 else m[key]? := by
  obtain ⟨written, value⟩ := change
  cases value with
  | none => simp [write, Std.ExtTreeMap.getElem?_erase]
  | some value => simp [write, Std.ExtTreeMap.getElem?_insert]

/-- A key holds its last write, or what it held before. -/
theorem getElem?_replay (changes : List (K × Option V)) (m : Std.ExtTreeMap K V) (key : K) :
    (replay changes m)[key]? = (lastWrite changes key).getD m[key]? := by
  induction changes using List.reverseRecOn with
  | nil => simp
  | append_singleton changes change ih =>
      rw [replay_append_singleton, getElem?_write, lastWrite_append_singleton, ih]
      split <;> simp

theorem getElem?_collect (changes : List (K × Option V)) (key : K) :
    (collect changes)[key]? = lastWrite changes key := by
  induction changes using List.reverseRecOn with
  | nil => simp [collect]
  | append_singleton changes change ih =>
      rw [collect_append_singleton, Std.ExtTreeMap.getElem?_insert, ih,
        lastWrite_append_singleton]
      simp

omit [DecidableEq K] in
theorem keys_nodup (m : Std.ExtTreeMap K V) : (m.toList.map Prod.fst).Nodup := by
  refine List.pairwise_map.mpr (Std.ExtTreeMap.distinct_keys_toList.imp ?_)
  intro a b h heq
  exact h (by simp [heq])

/-- The last write in the entries of a map of writes is the entry. -/
theorem lastWrite_toList (collected : Std.ExtTreeMap K (Option V)) (key : K) :
    lastWrite collected.toList key = collected[key]? := by
  ext value
  rw [lastWrite_eq_some_iff (keys_nodup collected),
    Std.ExtTreeMap.mem_toList_iff_getElem?_eq_some]

omit [DecidableEq K] in
/-- Only the last write to each key counts. -/
theorem replay_collect (changes : List (K × Option V)) (m : Std.ExtTreeMap K V) :
    replay (collect changes).toList m = replay changes m := by
  classical
  refine Std.ExtTreeMap.ext_getElem? fun key => ?_
  rw [getElem?_replay, getElem?_replay, lastWrite_toList, getElem?_collect]

omit [DecidableEq K] in
theorem collect_eq_empty_iff {changes : List (K × Option V)} :
    collect changes = ∅ ↔ changes = [] := by
  classical
  constructor
  · intro h
    refine List.eq_nil_iff_forall_not_mem.mpr fun change hmem => ?_
    have hnone : lastWrite changes change.1 = none := by rw [← getElem?_collect, h]; simp
    exact lastWrite_eq_none_iff.mp hnone change hmem rfl
  · rintro rfl
    rfl

/-- A list of writes that takes one map to another, with no key written twice and none in
vain. -/
structure IsDiff (before after : Std.ExtTreeMap K V) (changes : List (K × Option V)) :
    Prop where
  keys_nodup : (changes.map Prod.fst).Nodup
  mem_iff : ∀ key value, (key, value) ∈ changes ↔ before[key]? ≠ value ∧ after[key]? = value

omit [Std.LawfulEqOrd K] [DecidableEq K] in
theorem IsDiff.perm {before after : Std.ExtTreeMap K V} {changes changes' : List (K × Option V)}
    (h : IsDiff before after changes) (hperm : changes'.Perm changes) :
    IsDiff before after changes' where
  keys_nodup := (hperm.map _).nodup_iff.mpr h.keys_nodup
  mem_iff key value := hperm.mem_iff.trans (h.mem_iff key value)

omit [DecidableEq K] in
theorem IsDiff.replay_eq {before after : Std.ExtTreeMap K V} {changes : List (K × Option V)}
    (h : IsDiff before after changes) : replay changes before = after := by
  classical
  refine Std.ExtTreeMap.ext_getElem? fun key => ?_
  rw [getElem?_replay]
  cases hlast : lastWrite changes key with
  | some value =>
      exact ((h.mem_iff key value).mp (mem_of_lastWrite_eq_some hlast)).2.symm
  | none =>
      by_contra hne
      exact lastWrite_eq_none_iff.mp hlast _ ((h.mem_iff key after[key]?).mpr ⟨hne, rfl⟩) rfl

end PartnerChains.LastWrite
