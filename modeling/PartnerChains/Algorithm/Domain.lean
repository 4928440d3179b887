import PartnerChains.Library.Checked
import PartnerChains.Library.OrderedMap

/-! Domain types shared by the pallets, the inherent data providers and the data
sources. Fixed-size byte arrays carry their length; numbers that are only compared
are natural numbers. -/

namespace PartnerChains

/-! ## Bytes -/

abbrev ByteString := List UInt8

/-- A byte array of a fixed length. -/
def Bytes (n : ℕ) : Type := { bytes : ByteString // bytes.length = n }

namespace Bytes

instance {n : ℕ} : DecidableEq (Bytes n) :=
  inferInstanceAs (DecidableEq { bytes : ByteString // bytes.length = n })

/-- The conversion of a byte vector to an array, which fails on a wrong length. -/
def tryFrom (n : ℕ) (bytes : ByteString) : Option (Bytes n) :=
  if h : bytes.length = n then some ⟨bytes, h⟩ else none

def filled (n : ℕ) (byte : UInt8) : Bytes n := ⟨List.replicate n byte, List.length_replicate⟩

/-- The low bytes of a number, most significant first. -/
def ofNatBigEndian (n value : ℕ) : Bytes n :=
  ⟨(List.range n).reverse.map fun i => UInt8.ofNat (value / 256 ^ i), by simp⟩

def toNatBigEndian {n : ℕ} (bytes : Bytes n) : ℕ :=
  bytes.val.foldl (fun value byte => value * 256 + byte.toNat) 0

/-- Arrays are compared byte by byte. -/
instance {n : ℕ} : LinearOrder (Bytes n) :=
  LinearOrder.lift' (fun bytes => bytes.val.map UInt8.toNat)
    ((List.map_injective_iff.mpr fun _ _ h => UInt8.toNat_inj.mp h).comp
      Subtype.val_injective)

theorem tryFrom_val {n : ℕ} (bytes : Bytes n) : tryFrom n bytes.val = some bytes :=
  dif_pos bytes.property

end Bytes

/-- A vector whose length is bounded by its type. -/
structure BoundedVec (α : Type*) (bound : ℕ) where
  toList : List α
  length_le : toList.length ≤ bound
  deriving DecidableEq

namespace BoundedVec

variable {α β : Type*} {bound : ℕ}

/-- Keep the longest prefix that respects the bound. -/
def truncateFrom (bound : ℕ) (xs : List α) : BoundedVec α bound :=
  ⟨xs.take bound, List.length_take_le bound xs⟩

def tryFrom (bound : ℕ) (xs : List α) : Option (BoundedVec α bound) :=
  if h : xs.length ≤ bound then some ⟨xs, h⟩ else none

theorem tryFrom_of_le {xs : List α} (h : xs.length ≤ bound) :
    tryFrom bound xs = some ⟨xs, h⟩ := dif_pos h

theorem ext {xs ys : BoundedVec α bound} (h : xs.toList = ys.toList) : xs = ys := by
  cases xs
  cases ys
  simpa using h

end BoundedVec

/-! ## Key types -/

def auraKeyTypeId : Bytes 4 := ⟨[0x61, 0x75, 0x72, 0x61], rfl⟩

def grandpaKeyTypeId : Bytes 4 := ⟨[0x67, 0x72, 0x61, 0x6e], rfl⟩

/-! ## Cardano -/

abbrev McBlockNumber := ℕ
abbrev McEpochNumber := ℕ
abbrev McSlotNumber := ℕ
abbrev McTxIndexInBlock := ℕ
abbrev UtxoIndex := ℕ

abbrev McBlockHash := Bytes 32
abbrev McTxHash := Bytes 32
abbrev MainchainKeyHash := Bytes 28
abbrev PolicyId := Bytes 28
abbrev AssetName := ByteString

/-- A main chain address, which the pallets keep as its UTF-8 text. -/
abbrev MainchainAddress := String

structure MainchainBlock where
  number : McBlockNumber
  hash : McBlockHash
  epoch : McEpochNumber
  slot : McSlotNumber
  /-- Seconds since the UNIX epoch. -/
  timestamp : ℕ
  deriving DecidableEq

structure UtxoId where
  txHash : McTxHash
  index : UtxoIndex
  deriving DecidableEq

/-! ## Stake -/

/-- The owner of delegated stake: a user, or a Plutus script. -/
inductive DelegatorKey where
  | stakeKeyHash (hash : Bytes 28)
  | scriptKeyHash (hashRaw scriptHash : Bytes 28)
  deriving DecidableEq

namespace DelegatorKey

/-- The position in the order: user keys come before script keys. -/
def rank : DelegatorKey → Lex (Bytes 28 ⊕ Lex (Bytes 28 × Bytes 28))
  | stakeKeyHash hash => toLex (.inl hash)
  | scriptKeyHash hashRaw scriptHash => toLex (.inr (toLex (hashRaw, scriptHash)))

theorem rank_injective : Function.Injective rank := by
  intro a b h
  cases a <;> cases b <;> simp_all [rank]

instance : LinearOrder DelegatorKey := LinearOrder.lift' rank rank_injective

end DelegatorKey

structure PoolDelegation where
  totalStake : ℕ := 0
  delegators : OrderedMap DelegatorKey ℕ := .empty
  deriving DecidableEq

/-- Pools with the stake that is delegated to them. -/
abbrev StakeDistribution := OrderedMap MainchainKeyHash PoolDelegation

/-! ## Partner Chain -/

/-- Partner Chain epochs are 64-bit numbers, and so is their addition. -/
abbrev ScEpochNumber := UInt64

/-- The origin of a dispatched call. -/
inductive Origin where
  | none
  | root
  | signed (account : ByteString)
  deriving DecidableEq

/-- What `get_data` finds in the inherent data under one identifier: an undecodable
value, nothing, or a value. -/
abbrev InherentSlot (α : Type*) := Except Unit (Option α)

end PartnerChains
