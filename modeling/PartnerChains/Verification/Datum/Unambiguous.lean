import PartnerChains.Verification.Datum.Items

/-!
# Encoded datums are unambiguous

An item that is read from an encoding gives back the datum, when the bytes of a negative bignum are
understood as the encoder writes them. So the encoding of a datum is never the beginning of another
one's, and a signature covers one registration message.
-/

namespace PartnerChains

/-- The encoder writes the magnitude of a negative bignum. -/
theorem Datum.exists_item {depth : ℕ} {datum : Datum} (h : Addressable datum)
    (hdepth : datum.encodeDatum.length ≤ depth) :
    ∃ item, Reading.Reads (Cbor.readItem depth) datum.encodeDatum item ∧
      item.toDatumBy (fun magnitude => -magnitude) = some datum := by
  obtain ⟨item, hread, hmeans⟩ := readAs h hdepth
  exact ⟨item, hread, hmeans.mpr (h.eachInteger fun value => by dsimp only; omega)⟩

/-! ## Registration messages -/

theorem UtxoId.toDatum_injective : Function.Injective UtxoId.toDatum := by
  intro utxo utxo' h
  obtain ⟨⟨hash, hhash⟩, index⟩ := utxo
  obtain ⟨⟨hash', hhash'⟩, index'⟩ := utxo'
  have hfields : hash = hash' ∧ index = index' := by
    simpa [UtxoId.toDatum, McTxHash.toDatum] using h
  obtain ⟨rfl, rfl⟩ := hfields
  rfl

namespace AuthoritySelection

theorem RegisterValidatorSignedMessage.toDatum_injective :
    Function.Injective RegisterValidatorSignedMessage.toDatum := by
  intro message message' h
  obtain ⟨genesisUtxo, sidechainPubKey, registrationUtxo⟩ := message
  obtain ⟨genesisUtxo', sidechainPubKey', registrationUtxo'⟩ := message'
  simpa [toDatum, UtxoId.toDatum_injective.eq_iff] using h

theorem RegisterValidatorSignedMessage.addressable (message : RegisterValidatorSignedMessage) :
    Datum.Addressable message.toDatum := by
  have hutxo : ∀ utxo : UtxoId, Datum.Addressable utxo.toDatum := by
    intro utxo
    apply Datum.Addressable.constructorDatum
    simp only [List.forall_mem_cons, List.not_mem_nil, false_implies, implies_true, and_true]
    refine ⟨?_, .integerDatum _⟩
    apply Datum.Addressable.constructorDatum
    simpa using Datum.Addressable.byteStringDatum utxo.txHash.val
  apply Datum.Addressable.constructorDatum
  simp only [List.forall_mem_cons, List.not_mem_nil, false_implies, implies_true, and_true]
  exact ⟨hutxo message.genesisUtxo, .byteStringDatum _, hutxo message.registrationUtxo⟩

/-- The encoding of a datum is not the beginning of the encoding of another one, whatever
follows; so two registration messages with the same signed bytes are the same message. -/
theorem encodeDatum_unambiguous :
    (∀ d₁ d₂ : Datum, d₁.Addressable → d₂.Addressable → ∀ r₁ r₂ : ByteString,
      d₁.encodeDatum ++ r₁ = d₂.encodeDatum ++ r₂ → d₁ = d₂ ∧ r₁ = r₂) ∧
    ∀ m₁ m₂ : RegisterValidatorSignedMessage,
      m₁.toDatum.encodeDatum = m₂.toDatum.encodeDatum → m₁ = m₂ := by
  have hdatum : ∀ d₁ d₂ : Datum, d₁.Addressable → d₂.Addressable → ∀ r₁ r₂ : ByteString,
      d₁.encodeDatum ++ r₁ = d₂.encodeDatum ++ r₂ → d₁ = d₂ ∧ r₁ = r₂ := by
    intro d₁ d₂ h₁ h₂ r₁ r₂ h
    obtain ⟨item, hread₁, hitem₁⟩ := Datum.exists_item h₁ (Nat.le_add_right _ d₂.encodeDatum.length)
    obtain ⟨_, hread₂, hitem₂⟩ := Datum.exists_item h₂ (Nat.le_add_left _ d₁.encodeDatum.length)
    obtain ⟨rfl, hrest⟩ := hread₁.unique hread₂ h
    exact ⟨Option.some.inj (hitem₁.symm.trans hitem₂), hrest⟩
  refine ⟨hdatum, ?_⟩
  intro m₁ m₂ h
  apply RegisterValidatorSignedMessage.toDatum_injective
  exact (hdatum _ _ m₁.addressable m₂.addressable [] [] (by rw [h])).1

/-- A datum with nested sequences, a long constructor number and a map. -/
def nestedDatum : Datum :=
  .constructorDatum 1000 [.listDatum [.integerDatum (2 ^ 70), .integerDatum (-5)],
    .mapDatum [(.byteStringDatum (List.replicate 70 7), .listDatum [])]]

theorem nestedDatum_unambiguous : ∃ d₁ d₂ : Datum, ∃ r₁ r₂ : ByteString,
    d₁.Addressable ∧ d₂.Addressable ∧ d₁.encodeDatum ++ r₁ = d₂.encodeDatum ++ r₂ ∧
      d₁ = d₂ ∧ r₁ = r₂ := by
  have h : nestedDatum.Addressable := by
    apply Datum.Addressable.constructorDatum
    simp only [List.forall_mem_cons, List.not_mem_nil, false_implies, implies_true, and_true]
    refine ⟨.listDatum _ ?_, .mapDatum _ (by decide) ?_ ?_⟩
    · simp only [List.forall_mem_cons, List.not_mem_nil, false_implies, implies_true, and_true]
      exact ⟨.integerDatum _, .integerDatum _⟩
    · simpa using Datum.Addressable.byteStringDatum (List.replicate 70 7)
    · simpa using Datum.Addressable.listDatum [] (by simp)
  exact ⟨nestedDatum, nestedDatum, [1], [1], h, h, rfl,
    encodeDatum_unambiguous.1 nestedDatum nestedDatum h h [1] [1] rfl⟩

end AuthoritySelection

end PartnerChains
