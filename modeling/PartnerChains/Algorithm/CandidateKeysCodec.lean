import PartnerChains.Library.Scale
import PartnerChains.Algorithm.PermissionedCandidates

/-!
# The SCALE encoding of candidate keys

An Aura and a Grandpa key alone are written as two byte strings, as in the version that knew no
other keys. All other keys are written as a vector behind a mark, which stands where a decoder
looks for the length of the Aura key.
-/

namespace PartnerChains.AuthoritySelection

open Reading PermissionedCandidates

namespace CandidateKey

def encode (key : CandidateKey) : Except Panic ByteString := do
  let bytes ← Scale.encodeBytes key.bytes
  .ok (key.id.val ++ bytes)

def readId : Reader UInt8 KeyTypeId := fun input =>
  if h : 4 ≤ input.length then some (⟨input.take 4, by simp [h]⟩, input.drop 4) else none

def decode : Reader UInt8 CandidateKey :=
  andThen readId fun id => andThen Scale.readBytes fun bytes => done ⟨id, bytes⟩

end CandidateKey

/-- The greatest number of 32 bits. -/
def genericKeysMarker : ℕ := 2 ^ 32 - 1

/-- The two vectors of the version before. -/
def encodeLegacyKeys (aura grandpa : ByteString) : Except Panic ByteString := do
  let aura ← Scale.encodeBytes aura
  let grandpa ← Scale.encodeBytes grandpa
  .ok (aura ++ grandpa)

def CandidateKeys.encode (keys : CandidateKeys) : Except Panic ByteString :=
  if hasOnlyAuraAndGrandpaKeys keys then
    encodeLegacyKeys (findOrEmpty keys auraKeyTypeId) (findOrEmpty keys grandpaKeyTypeId)
  else do
    let vector ← Scale.encodeVec CandidateKey.encode keys
    .ok (Scale.compact genericKeysMarker ++ vector)

def CandidateKeys.decode : Reader UInt8 CandidateKeys :=
  andThen Scale.readCompact fun markerOrAuraSize =>
    if markerOrAuraSize = genericKeysMarker then Scale.readVec CandidateKey.decode
    else andThen (readTake markerOrAuraSize) fun aura =>
      andThen Scale.readBytes fun grandpa =>
        done [⟨auraKeyTypeId, aura⟩, ⟨grandpaKeyTypeId, grandpa⟩]

end PartnerChains.AuthoritySelection
