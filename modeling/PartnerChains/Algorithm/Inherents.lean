import PartnerChains.Algorithm.Domain

/-!
# The inherent checks of a runtime

The framework asks each pallet about the extrinsics at the start of a block, up to the first
one that no pallet takes for an inherent, and then whether a required inherent is missing. It
stops at the first fatal error.
-/

namespace PartnerChains.Inherents

structure Extrinsic (RuntimeCall : Type) where
  isBare : Bool
  call : RuntimeCall
  deriving DecidableEq

/-- What a pallet provides for the inherent with its identifier. A call of another pallet is
never its inherent. -/
structure PalletInherents (RuntimeCall InherentData Error : Type) where
  isInherent : RuntimeCall → Bool
  checkInherent : RuntimeCall → InherentData → Except Panic (Except Error Unit)
  isInherentRequired : InherentData → Except Panic (Except Error (Option Error))
  isFatalError : Error → Bool

/-- Why the checks ended early. -/
inductive Abort (Error : Type) where
  | panic (panic : Panic)
  | fatal (errors : List Error)

variable {RuntimeCall InherentData Error : Type}

def putError (pallet : PalletInherents RuntimeCall InherentData Error) (errors : List Error)
    (error : Error) : Except (Abort Error) (List Error) :=
  if pallet.isFatalError error then .error (.fatal (errors ++ [error]))
  else .ok (errors ++ [error])

/-- Whether a pallet takes the call for its inherent, with the errors so far. -/
def checkByPallet (data : InherentData) (call : RuntimeCall) (found : Bool × List Error)
    (pallet : PalletInherents RuntimeCall InherentData Error) :
    Except (Abort Error) (Bool × List Error) :=
  if pallet.isInherent call then
    match pallet.checkInherent call data with
    | .error panic => .error (.panic panic)
    | .ok (.ok ()) => .ok (true, found.2)
    | .ok (.error error) => (putError pallet found.2 error).map fun errors => (true, errors)
  else .ok found

def checkCalls (pallets : List (PalletInherents RuntimeCall InherentData Error))
    (data : InherentData) :
    List (Extrinsic RuntimeCall) → List Error → Except (Abort Error) (List Error)
  | [], errors => .ok errors
  | xt :: xts, errors =>
      if xt.isBare then do
        let (isInherent, errors) ← pallets.foldlM (checkByPallet data xt.call) (false, errors)
        if isInherent then checkCalls pallets data xts errors else .ok errors
      else .ok errors

def checkRequired (data : InherentData) (xts : List (Extrinsic RuntimeCall))
    (errors : List Error) (pallet : PalletInherents RuntimeCall InherentData Error) :
    Except (Abort Error) (List Error) :=
  match pallet.isInherentRequired data with
  | .error panic => .error (.panic panic)
  | .ok (.ok none) => .ok errors
  | .ok (.ok (some error)) =>
      if xts.any fun xt => xt.isBare && pallet.isInherent xt.call then .ok errors
      else putError pallet errors error
  | .ok (.error error) => putError pallet errors error

def checkExtrinsics (pallets : List (PalletInherents RuntimeCall InherentData Error))
    (data : InherentData) (xts : List (Extrinsic RuntimeCall)) :
    Except (Abort Error) (List Error) := do
  let errors ← checkCalls pallets data xts []
  pallets.foldlM (checkRequired data xts) errors

/-- The block passes when no check found an error. -/
def Rejected (pallets : List (PalletInherents RuntimeCall InherentData Error))
    (data : InherentData) (xts : List (Extrinsic RuntimeCall)) : Prop :=
  checkExtrinsics pallets data xts ≠ .ok []

end PartnerChains.Inherents
