import PartnerChains.Library.KeyedMap
import PartnerChains.Algorithm.PlutusData

/-!
# Outputs as Ogmios reports them, and values of the serialization library

Native tokens are a map of maps: the amounts of a policy by the names of its assets. Ogmios
sends them as JSON objects, which have each policy and each name once.
-/

namespace PartnerChains.SmartContracts

/-! ## Amounts -/

abbrev BigNum := UInt64

namespace BigNum

def checkedAdd (a b : BigNum) : Option BigNum :=
  if a.toNat + b.toNat < 2 ^ 64 then some (a + b) else none

def checkedSub (a b : BigNum) : Option BigNum :=
  if b ≤ a then some (a - b) else none

def saturatingAdd (a b : BigNum) : BigNum :=
  if a.toNat + b.toNat < 2 ^ 64 then a + b else 18446744073709551615

end BigNum

/-! ## Native tokens -/

structure AssetId where
  policyId : PolicyId
  assetName : BoundedVec UInt8 32
  deriving DecidableEq

abbrev Assets := AList fun _ : AssetName => BigNum

abbrev MultiAsset := AList fun _ : PolicyId => Assets

/-- The asset of a policy that has no name. -/
def emptyNameAsset (policyId : PolicyId) : AssetId := ⟨policyId, ⟨[], Nat.zero_le 32⟩⟩

namespace MultiAsset

def getAsset (ma : MultiAsset) (policyId : PolicyId) (assetName : AssetName) : BigNum :=
  ((ma.lookup policyId).bind fun assets => assets.lookup assetName).getD 0

def setAsset (ma : MultiAsset) (policyId : PolicyId) (assetName : AssetName) (value : BigNum) :
    MultiAsset :=
  ma.insert policyId (((ma.lookup policyId).getD ∅).insert assetName value)

/-- An asset of which nothing is left is removed, and so is a policy without assets. -/
def subAsset (ma : MultiAsset) (policyId : PolicyId) (assetName : AssetName)
    (amount : BigNum) : MultiAsset :=
  match ma.lookup policyId with
  | none => ma
  | some assets =>
      match assets.lookup assetName with
      | none => ma
      | some current =>
          if amount < current then ma.insert policyId (assets.insert assetName (current - amount))
          else
            let rest := assets.erase assetName
            if rest.entries.isEmpty then ma.erase policyId else ma.insert policyId rest

def sub (ma rhs : MultiAsset) : MultiAsset :=
  rhs.entries.foldl (fun ma policy =>
    policy.2.entries.foldl (fun ma asset => ma.subAsset policy.1 asset.1 asset.2) ma) ma

/-- The amount of an asset is replaced; an amount of zero is taken off instead, as the library
has no way to remove an asset. -/
def withAssetAmount (ma : MultiAsset) (asset : AssetId) (amount : BigNum) : MultiAsset :=
  if amount > 0 then ma.setAsset asset.policyId asset.assetName.toList amount
  else
    let currentValue := ma.getAsset asset.policyId asset.assetName.toList
    if currentValue > 0 then
      ma.sub (MultiAsset.setAsset ∅ asset.policyId asset.assetName.toList currentValue)
    else ma

end MultiAsset

def AssetId.toMultiAsset (asset : AssetId) (amount : BigNum) : MultiAsset :=
  AList.singleton asset.policyId (AList.singleton asset.assetName.toList amount)

/-! ## Outputs -/

structure OgmiosValue where
  lovelace : UInt64
  nativeTokens : MultiAsset
  deriving DecidableEq

structure OgmiosUtxo where
  utxoId : UtxoId
  address : MainchainAddress
  value : OgmiosValue
  datum : Option ByteString
  deriving DecidableEq

inductive JsError where
  | assetNameTooLong (assetName : AssetName)
  | couldNotConvertOgmiosValue (assetName : AssetName)
  | overflow
  deriving DecidableEq

/-- Names of the serialization library have at most 32 bytes. -/
def assetAmountToCsl (error : AssetName → JsError) (assetName : AssetName) (amount : BigNum) :
    Except JsError BigNum :=
  if assetName.length ≤ 32 then .ok amount else .error (error assetName)

/-- The tokens are inserted into new maps one by one. -/
def nativeTokensToCsl (error : AssetName → JsError) (nativeTokens : MultiAsset) :
    Except JsError MultiAsset :=
  KeyedMap.insertAllM
    (fun _ assets => KeyedMap.insertAllM (assetAmountToCsl error) assets.entries)
    nativeTokens.entries

structure Value where
  coin : BigNum
  multiasset : Option MultiAsset

def OgmiosValue.toCsl (value : OgmiosValue) : Except JsError Value :=
  if value.nativeTokens.entries.isEmpty then .ok ⟨value.lovelace, none⟩
  else do
    let multiasset ← nativeTokensToCsl .couldNotConvertOgmiosValue value.nativeTokens
    .ok ⟨value.lovelace, some multiasset⟩

def MultiAsset.fromOgmiosUtxo (utxo : OgmiosUtxo) : Except JsError MultiAsset :=
  nativeTokensToCsl .assetNameTooLong utxo.value.nativeTokens

namespace OgmiosUtxo

def getAssetAmount (utxo : OgmiosUtxo) (asset : AssetId) : BigNum :=
  utxo.value.nativeTokens.getAsset asset.policyId asset.assetName.toList

/-- The datum, when its bytes are Plutus data. -/
def getPlutusData (fromBytes : ByteString → Option PlutusData) (utxo : OgmiosUtxo) :
    Option PlutusData :=
  utxo.datum.bind fromBytes

end OgmiosUtxo

end PartnerChains.SmartContracts
