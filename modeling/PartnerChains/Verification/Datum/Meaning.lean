import PartnerChains.Verification.Datum.Items

/-!
# What an encoded datum means

By RFC 8949, a negative bignum is one below the negated number in its bytes. The encoder writes the
magnitude, so that such a number is read as the next smaller one.
-/

namespace PartnerChains

namespace Cbor

open Reading

def Item.toDatum : Item → Option Datum := Item.toDatumBy fun magnitude => -1 - magnitude

/-- An input has no item that is nested deeper than the input is long. -/
def decodeDatum : Reader UInt8 Datum := fun input =>
  (readItem input.length input).bind fun result =>
    result.1.toDatum.map fun datum => (datum, result.2)

end Cbor

namespace Datum

/-- No integer of the datum is below the signed 64-bit numbers. -/
abbrev NoNegativeBignum : Datum → Prop := EachInteger (-2 ^ 63 ≤ ·)

theorem meant_iff_noNegativeBignum {datum : Datum} :
    Meant (fun magnitude => -1 - magnitude) datum ↔ NoNegativeBignum datum := by
  have hnone (value : ℤ) : (-2 ^ 63 ≤ value ∨ -1 - (value.natAbs : ℤ) = value) ↔
      -2 ^ 63 ≤ value := by omega
  simp only [Meant, NoNegativeBignum, hnone]

/-- An encoded datum means the same datum, with nothing left over, exactly when no integer in it
is below the signed 64-bit numbers. -/
theorem decodeDatum_encodeDatum_iff {datum : Datum} (h : Addressable datum) :
    Cbor.decodeDatum (encodeDatum datum) = some (datum, []) ↔ NoNegativeBignum datum := by
  obtain ⟨item, hread, hmeans⟩ := readAs h le_rfl
  have hitem := hread []
  rw [List.append_nil] at hitem
  rw [← meant_iff_noNegativeBignum, ← hmeans, Cbor.decodeDatum, hitem, Option.bind_some,
    Cbor.Item.toDatum]
  cases item.toDatumBy _ <;> simp

theorem decodeDatum_encodeDatum_iff_nested :
    ∃ datum, datum = constructorDatum 200
        [integerDatum (2 ^ 64), mapDatum [(byteStringDatum [7], integerDatum (-5))]] ∧
      Addressable datum ∧ Cbor.decodeDatum (encodeDatum datum) = some (datum, []) := by
  have hdatum : Addressable (constructorDatum 200
      [integerDatum (2 ^ 64), mapDatum [(byteStringDatum [7], integerDatum (-5))]]) := by
    refine .constructorDatum _ _ (List.forall_mem_cons.mpr ⟨.integerDatum _, ?_⟩)
    refine List.forall_mem_singleton.mpr (.mapDatum _ (by decide) ?_ ?_)
    · exact List.forall_mem_singleton.mpr (.byteStringDatum _)
    · exact List.forall_mem_singleton.mpr (.integerDatum _)
  refine ⟨_, rfl, hdatum, (decodeDatum_encodeDatum_iff hdatum).mpr ?_⟩
  refine .constructorDatum _ _ (List.forall_mem_cons.mpr ⟨.integerDatum _ (by decide), ?_⟩)
  refine List.forall_mem_singleton.mpr (.mapDatum _ ?_ ?_)
  · exact List.forall_mem_singleton.mpr (.byteStringDatum _)
  · exact List.forall_mem_singleton.mpr (.integerDatum _ (by decide))

/-- The first number that does not fit is read as the next smaller one. -/
theorem negative_bignum_is_shifted :
    Cbor.decodeDatum (encodeDatum (integerDatum (-2 ^ 63 - 1))) =
      some (integerDatum (-2 ^ 63 - 2), []) := by
  rfl

end Datum

end PartnerChains
