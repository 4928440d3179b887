import PartnerChains.Algorithm.Domain

/-!
# Governance by several signatures

The parameters of a governance policy, the native script that is made of them, and the policies
that are read from the chain. A list of authorities may name a key more than once.
-/

namespace PartnerChains.SmartContracts

/-! ## Native scripts -/

/-- The native scripts that governance uses. -/
inductive NativeScript where
  | scriptPubkey (keyHash : MainchainKeyHash)
  | scriptNOfK (n : UInt32) (scripts : List NativeScript)

mutual

/-- The rule of the ledger. -/
def NativeScript.satisfiedBy (signers : Finset MainchainKeyHash) : NativeScript → Bool
  | .scriptPubkey keyHash => keyHash ∈ signers
  | .scriptNOfK n scripts => n.toNat ≤ NativeScript.countSatisfied signers scripts

def NativeScript.countSatisfied (signers : Finset MainchainKeyHash) : List NativeScript → ℕ
  | [] => 0
  | script :: scripts =>
      (script.satisfiedBy signers).toNat + NativeScript.countSatisfied signers scripts

end

structure SimpleAtLeastN where
  threshold : UInt32
  keyHashes : List MainchainKeyHash
  deriving DecidableEq

def SimpleAtLeastN.toCslNativeScript (policy : SimpleAtLeastN) : NativeScript :=
  .scriptNOfK policy.threshold (policy.keyHashes.map .scriptPubkey)

/-! ## Parameters -/

/-- What the constructor has checked is kept. -/
structure MultiSigParameters where
  governanceAuthorities : List MainchainKeyHash
  threshold : UInt8
  nonempty : governanceAuthorities ≠ []
  positive : threshold ≠ 0
  threshold_le : threshold.toNat ≤ governanceAuthorities.length

namespace MultiSigParameters

def new (governanceAuthorities : List MainchainKeyHash) (threshold : UInt8) :
    Except String MultiSigParameters :=
  if nonempty : governanceAuthorities = [] then .error "governance authorities cannot be be empty"
  else if positive : threshold = 0 then .error "threshold has to be a positive number"
  else if threshold_le : governanceAuthorities.length < threshold.toNat then
    .error "threshold cannot be greater than governance authorities length"
  else
    .ok ⟨governanceAuthorities, threshold, nonempty, positive, Nat.le_of_not_lt threshold_le⟩

def newOneOfOne (governanceAuthority : MainchainKeyHash) : MultiSigParameters :=
  ⟨[governanceAuthority], 1, by simp, by decide, by simp⟩

def asSimpleAtLeastN (parameters : MultiSigParameters) : SimpleAtLeastN where
  threshold := parameters.threshold.toUInt32
  keyHashes := parameters.governanceAuthorities

end MultiSigParameters

end PartnerChains.SmartContracts
