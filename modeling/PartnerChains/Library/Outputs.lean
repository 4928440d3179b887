import Mathlib

/-!
# Unspent outputs

A ledger of outputs with identifiers. A transaction spends outputs and creates others. As outputs
do not change and identifiers are not used again, what was read from an output long ago holds of it
as long as it is not spent.
-/

namespace PartnerChains

/-- Every output that was ever created, oldest first, and the identifiers that were ever spent. -/
structure OutputLedger {α ι : Type*} (idOf : α → ι) where
  outputs : List α
  spent : List ι
  nodup : (outputs.map idOf).Nodup

namespace OutputLedger

variable {α ι : Type*} [DecidableEq ι] {idOf : α → ι}

def empty : OutputLedger idOf := ⟨[], [], List.nodup_nil⟩

def unspent (l : OutputLedger idOf) : List α := l.outputs.filter fun o => idOf o ∉ l.spent

/-- A transaction is accepted when nothing has spent its inputs. -/
structure Applies (l : OutputLedger idOf) (inputs : List ι) (created : List α)
    (l' : OutputLedger idOf) : Prop where
  inputs_unspent : ∀ i ∈ inputs, i ∉ l.spent
  created_fresh : ∀ o ∈ created, idOf o ∉ l.spent ++ inputs
  outputs : l'.outputs = l.outputs ++ created
  spent : l'.spent = l.spent ++ inputs

theorem mem_unspent {l : OutputLedger idOf} {o : α} :
    o ∈ l.unspent ↔ o ∈ l.outputs ∧ idOf o ∉ l.spent := by
  simp [unspent]

theorem eq_of_idOf_eq (l : OutputLedger idOf) {o o' : α} (ho : o ∈ l.unspent) (ho' : o' ∈ l.unspent)
    (h : idOf o = idOf o') : o = o' :=
  List.inj_on_of_nodup_map l.nodup (mem_unspent.mp ho).1 (mem_unspent.mp ho').1 h

theorem nodup_unspent (l : OutputLedger idOf) : l.unspent.Nodup :=
  (List.Nodup.of_map idOf l.nodup).filter _

namespace Applies

variable {l l' : OutputLedger idOf} {inputs : List ι} {created : List α} (marked : α → Bool)

theorem unspent_eq (h : l.Applies inputs created l') :
    l'.unspent = (l.unspent.filter fun o => idOf o ∉ inputs) ++ created := by
  rw [unspent, h.outputs, h.spent, List.filter_append]
  congr 1
  · rw [unspent, List.filter_filter]
    refine List.filter_congr fun o _ => ?_
    simp only [List.mem_append, not_or, Bool.decide_and]
    rw [Bool.and_comm]
  · exact List.filter_eq_self.mpr fun o ho => decide_eq_true (h.created_fresh o ho)

/-- No marked output is spent. -/
theorem filter_of_kept (h : l.Applies inputs created l')
    (hkept : ∀ o ∈ l.unspent, marked o → idOf o ∉ inputs) :
    l'.unspent.filter marked = l.unspent.filter marked ++ created.filter marked := by
  rw [h.unspent_eq, List.filter_append, List.filter_filter]
  congr 1
  refine List.filter_congr fun o ho => ?_
  by_cases hmarked : marked o = true
  · simp [hmarked, hkept o ho hmarked]
  · simp [hmarked]

/-- One marked output is spent. -/
theorem filter_of_replaced [DecidableEq α] (h : l.Applies inputs created l') {o : α}
    (ho : o ∈ l.unspent)
    (hinputs : ∀ o' ∈ l.unspent, marked o' → (idOf o' ∈ inputs ↔ idOf o' = idOf o)) :
    l'.unspent.filter marked = (l.unspent.filter marked).erase o ++ created.filter marked := by
  rw [h.unspent_eq, List.filter_append, (l.nodup_unspent.filter _).erase_eq_filter,
    List.filter_filter, List.filter_filter]
  congr 1
  refine List.filter_congr fun o' ho' => ?_
  by_cases hmarked : marked o' = true
  · have hiff : idOf o' ∈ inputs ↔ o' = o :=
      (hinputs o' ho' hmarked).trans ⟨l.eq_of_idOf_eq ho' ho, congrArg idOf⟩
    simp [hmarked, hiff, bne, beq_eq_decide]
  · simp [hmarked]

end Applies

end OutputLedger

end PartnerChains
