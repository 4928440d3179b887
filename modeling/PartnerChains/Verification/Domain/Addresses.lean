import PartnerChains.Algorithm.MainchainAddresses

/-!
# Which addresses survive serialization

SCALE lets every sequence of bytes in, but only the bytes of a text can be written. A text that
can be read as hexadecimal comes back as other bytes.
-/

namespace PartnerChains.MainchainAddressBytes

open Fallible Reading

variable {fromHex : String → Option ByteString} {address : MainchainAddressBytes} {text : String}

theorem textBytes_of_stringFromUtf8 {bytes : ByteString}
    (h : GovernedMapDatum.stringFromUtf8 bytes = some text) : textBytes text = bytes := by
  unfold GovernedMapDatum.stringFromUtf8 String.fromUTF8? at h
  split_ifs at h
  obtain rfl := Option.some.inj h
  simp [textBytes, String.fromUTF8]

theorem tryFrom_toList (address : MainchainAddressBytes) :
    BoundedVec.tryFrom maxMainchainAddressBytes address.toList = some address :=
  BoundedVec.tryFrom_of_le address.length_le

/-! ## Entries -/

/-- How an address gets into the system. -/
inductive Enters (fromHex : String → Option ByteString) (address : MainchainAddressBytes) : Prop
  | text (text : String) (h : fromStr text = .ok address)
  | json (text : String) (h : deserialize fromHex text = .ok address)
  | scale (input rest : ByteString) (h : decode input = some (address, rest))

theorem codes_encode (address : MainchainAddressBytes) :
    Scale.Codes encode decode address := by
  have hlength : address.toList.length < 2 ^ 32 := by
    have hle : address.toList.length ≤ 120 := address.length_le
    omega
  obtain ⟨written, hwritten, hreads⟩ := Scale.codes_bytes hlength
  refine ⟨written, hwritten, fun rest => ?_⟩
  rw [decode, andThen, hreads rest]
  simp [tryFrom_toList, done]

theorem enters (fromHex : String → Option ByteString) (address : MainchainAddressBytes) :
    Enters fromHex address := by
  obtain ⟨written, -, hreads⟩ := codes_encode address
  exact .scale (written ++ []) [] (hreads [])

/-- An address that was plain text can always be displayed. -/
theorem display_of_fromStr (h : fromStr text = .ok address) : display address = .ok text := by
  unfold fromStr BoundedVec.tryFrom at h
  split_ifs at h
  obtain rfl := Except.ok.inj h
  have htext : GovernedMapDatum.stringFromUtf8 (textBytes text) = some text :=
    GovernedMapDatum.stringFromUtf8_toUTF8 text
  simp [display, expectText, htext]

/-! ## Exits -/

/-- The address can be displayed and written, and what is written is read back. -/
structure Survives (fromHex : String → Option ByteString) (address : MainchainAddressBytes) :
    Prop where
  displayed : ∃ text, display address = .ok text
  restored : ∃ text, serialize address = .ok text ∧ deserialize fromHex text = .ok address

theorem expectText_eq_ok_iff {message : String} :
    expectText message address = .ok text ↔
      GovernedMapDatum.stringFromUtf8 address.toList = some text := by
  unfold expectText
  cases GovernedMapDatum.stringFromUtf8 address.toList <;> simp

theorem deserialize_eq_ok_iff : deserialize fromHex text = .ok address ↔
    (fromHex text).getD (textBytes text) = address.toList := by
  unfold deserialize
  constructor
  · intro h
    cases htry : BoundedVec.tryFrom maxMainchainAddressBytes
        ((fromHex text).getD (textBytes text)) with
    | none => simp [htry] at h
    | some read =>
        obtain rfl : read = address := by simpa [htry] using h
        unfold BoundedVec.tryFrom at htry
        split_ifs at htry
        rw [← Option.some.inj htry]
  · intro h
    simp [h, tryFrom_toList]

/-- The text of an address is read back unless it is the hexadecimal form of other bytes. -/
theorem deserialize_text_iff (h : GovernedMapDatum.stringFromUtf8 address.toList = some text) :
    deserialize fromHex text = .ok address ↔ ∀ bytes ∈ fromHex text, bytes = address.toList := by
  rw [deserialize_eq_ok_iff, textBytes_of_stringFromUtf8 h]
  cases fromHex text <;> simp

/-- Every address can get in through SCALE. It survives exactly when its bytes are a text which is
not the hexadecimal form of other bytes. -/
theorem mainchain_address_survives_iff (fromHex : String → Option ByteString)
    (address : MainchainAddressBytes) :
    Enters fromHex address ∧
      (Survives fromHex address ↔
        ∃ text, GovernedMapDatum.stringFromUtf8 address.toList = some text ∧
          ∀ bytes ∈ fromHex text, bytes = address.toList) := by
  refine ⟨enters fromHex address, ?_, ?_⟩
  · rintro ⟨-, text, hserialize, hdeserialize⟩
    have htext := expectText_eq_ok_iff.mp hserialize
    exact ⟨text, htext, (deserialize_text_iff htext).mp hdeserialize⟩
  · rintro ⟨text, htext, hhex⟩
    refine ⟨⟨text, expectText_eq_ok_iff.mpr htext⟩, text, expectText_eq_ok_iff.mpr htext, ?_⟩
    exact (deserialize_text_iff htext).mpr hhex

/-! ## Addresses that are lost -/

def hexDigit (byte : UInt8) : Option UInt8 :=
  if 0x30 ≤ byte ∧ byte ≤ 0x39 then some (byte - 0x30)
  else if 0x61 ≤ byte ∧ byte ≤ 0x66 then some (byte - 0x61 + 10)
  else none

/-- Two digits for each byte. -/
def readHexPairs : ByteString → Option ByteString
  | [] => some []
  | high :: low :: rest => do
      let high ← hexDigit high
      let low ← hexDigit low
      let bytes ← readHexPairs rest
      some ((high * 16 + low) :: bytes)
  | _ => none

/-- A byte that is no text stops the node, and a text of two digits comes back as one byte. -/
theorem addresses_are_lost :
    (∃ address, decode [4, 0xff] = some (address, []) ∧
      display address = .error ⟨"MainchainAddressString is always properly encoded UTF-8"⟩ ∧
      serialize address = .error ⟨"MainchainAddress is always valid UTF-8"⟩) ∧
    ∃ address restored, fromStr "ab" = .ok address ∧ serialize address = .ok "ab" ∧
      deserialize (readHexPairs ∘ textBytes) "ab" = .ok restored ∧
      address.toList = [0x61, 0x62] ∧ restored.toList = [0xab] := by
  have hinvalid : GovernedMapDatum.stringFromUtf8 [0xff] = none := by decide +kernel
  refine ⟨⟨⟨[0xff], by decide⟩, rfl, ?_, ?_⟩, ⟨[0x61, 0x62], by decide⟩, ⟨[0xab], by decide⟩, ?_⟩
  · simp [display, expectText, hinvalid]
  · simp [serialize, expectText, hinvalid]
  · decide +kernel

end PartnerChains.MainchainAddressBytes
