import PartnerChains.Algorithm.Inherents
import PartnerChains.Algorithm.ProductionLog

/-!
# The checks of a block do not see the producer that it names

The log pallet has no check of its own for its inherent. A block that names a wrong producer
is rejected exactly when another pallet rejects it.
-/

namespace PartnerChains.Inherents

variable {RuntimeCall InherentData Error : Type}

/-! ## Pallets that answer alike -/

theorem foldlM_eq_of_forall₂ {α β ε : Type} {f g : β → α → Except ε β} {xs ys : List α}
    (h : List.Forall₂ (fun x y => ∀ b, f b x = g b y) xs ys) (b : β) :
    xs.foldlM f b = ys.foldlM g b := by
  induction h generalizing b with
  | nil => rfl
  | cons hxy _ ih =>
      rw [List.foldlM_cons, List.foldlM_cons, hxy b]
      exact bind_congr fun b' => ih b'

/-- Two pallets answer alike about a block when they agree on every call, and on whether a
required inherent is missing. -/
structure AnswerAlike (data : InherentData) (xts : List (Extrinsic RuntimeCall))
    (pallet pallet' : PalletInherents RuntimeCall InherentData Error) : Prop where
  check : ∀ call found, checkByPallet data call found pallet =
    checkByPallet data call found pallet'
  required : ∀ errors, checkRequired data xts errors pallet =
    checkRequired data xts errors pallet'

variable {pallets pallets' : List (PalletInherents RuntimeCall InherentData Error)}
  {data : InherentData}

theorem checkCalls_eq_of_answerAlike {xts : List (Extrinsic RuntimeCall)}
    (h : List.Forall₂ (AnswerAlike data xts) pallets pallets')
    (calls : List (Extrinsic RuntimeCall)) (errors : List Error) :
    checkCalls pallets data calls errors = checkCalls pallets' data calls errors := by
  induction calls generalizing errors with
  | nil => rfl
  | cons xt calls ih =>
      have hfold := foldlM_eq_of_forall₂ (h.imp fun _ _ halike => halike.check xt.call)
        (false, errors)
      simp only [checkCalls, hfold]
      split_ifs
      · refine bind_congr fun found => ?_
        obtain ⟨isInherent, errors⟩ := found
        cases isInherent with
        | true => exact ih errors
        | false => rfl
      · rfl

theorem checkExtrinsics_eq_of_answerAlike {xts : List (Extrinsic RuntimeCall)}
    (h : List.Forall₂ (AnswerAlike data xts) pallets pallets') :
    checkExtrinsics pallets data xts = checkExtrinsics pallets' data xts := by
  rw [checkExtrinsics, checkExtrinsics, checkCalls_eq_of_answerAlike h]
  exact bind_congr fun errors =>
    foldlM_eq_of_forall₂ (h.imp fun _ _ halike => halike.required) errors

end PartnerChains.Inherents

namespace PartnerChains.ProductionLog

open Inherents

variable {Producer OtherCall OtherData OtherError : Type}

/-! ## The runtime -/

/-- The calls of a runtime with the log pallet. -/
inductive RuntimeCall (Producer OtherCall : Type) where
  | productionLog (call : Call Producer)
  | other (call : OtherCall)
  deriving DecidableEq

/-- The data of the log pallet and those of the other pallets. -/
structure RuntimeData (Producer OtherData : Type) where
  author : InherentSlot Producer
  other : OtherData

/-- All errors of the log pallet are fatal. -/
def logInherents (s : Storage Producer) :
    PalletInherents (RuntimeCall Producer OtherCall) (RuntimeData Producer OtherData)
      (InherentError ⊕ OtherError) where
  isInherent
    | .productionLog call => isInherent call
    | .other _ => false
  checkInherent
    | .productionLog call, data => .ok ((checkInherent call data.author).mapError .inl)
    | .other _, _ => .ok (.ok ())
  isInherentRequired data :=
    .ok (((isInherentRequired s data.author).map (Option.map .inl)).mapError .inl)
  isFatalError _ := true

/-- In the place of the log pallet: its calls are inherents, and nothing is checked. -/
def uncheckedInherents :
    PalletInherents (RuntimeCall Producer OtherCall) (RuntimeData Producer OtherData)
      (InherentError ⊕ OtherError) where
  isInherent
    | .productionLog call => isInherent call
    | .other _ => false
  checkInherent _ _ := .ok (.ok ())
  isInherentRequired _ := .ok (.ok none)
  isFatalError _ := true

/-- Another pallet, which does not know the calls of the log pallet. -/
def otherInherents (pallet : PalletInherents OtherCall OtherData OtherError) :
    PalletInherents (RuntimeCall Producer OtherCall) (RuntimeData Producer OtherData)
      (InherentError ⊕ OtherError) where
  isInherent
    | .productionLog _ => false
    | .other call => pallet.isInherent call
  checkInherent
    | .productionLog _, _ => .ok (.ok ())
    | .other call, data => (pallet.checkInherent call data.other).map fun result =>
        result.mapError .inr
  isInherentRequired data := (pallet.isInherentRequired data.other).map fun result =>
    (result.map (Option.map .inr)).mapError .inr
  isFatalError
    | .inl _ => true
    | .inr error => pallet.isFatalError error

/-- A runtime with a pallet for the log among others. -/
def runtimeInherents
    (log : PalletInherents (RuntimeCall Producer OtherCall) (RuntimeData Producer OtherData)
      (InherentError ⊕ OtherError))
    (before after : List (PalletInherents OtherCall OtherData OtherError)) :
    List (PalletInherents (RuntimeCall Producer OtherCall) (RuntimeData Producer OtherData)
      (InherentError ⊕ OtherError)) :=
  before.map otherInherents ++ log :: after.map otherInherents

abbrev Extrinsics (Producer OtherCall : Type) := List (Extrinsic (RuntimeCall Producer OtherCall))

/-! ## Naming the producer -/

/-- The block has an inherent that names a producer other than the given one. -/
def NamesOther (producer : Producer) (xts : Extrinsics Producer OtherCall) : Prop :=
  ∃ other, other ≠ producer ∧ ⟨true, .productionLog (.append other)⟩ ∈ xts

/-- A block that names a producer other than the verifier's is rejected by the verifier. -/
def AuthorIntegrity (before after : List (PalletInherents OtherCall OtherData OtherError))
    (s : Storage Producer) (producer : Producer) (other : OtherData)
    (xts : Extrinsics Producer OtherCall) : Prop :=
  NamesOther producer xts →
    Rejected (runtimeInherents (logInherents s) before after) ⟨.ok (some producer), other⟩ xts

/-- The pallets besides the log pallet reject the block. -/
def OthersReject (before after : List (PalletInherents OtherCall OtherData OtherError))
    (producer : Producer) (other : OtherData) (xts : Extrinsics Producer OtherCall) : Prop :=
  Rejected (runtimeInherents uncheckedInherents before after) ⟨.ok (some producer), other⟩ xts

/-- About a block with an inherent of the log pallet, the log pallet has nothing to object,
whatever producer the inherent names. -/
theorem logInherents_answerAlike (s : Storage Producer) (producer : Producer)
    (other : OtherData) {xts : Extrinsics Producer OtherCall} {named : Producer}
    (hnamed : ⟨true, .productionLog (.append named)⟩ ∈ xts) :
    AnswerAlike ⟨.ok (some producer), other⟩ xts
      (logInherents s : PalletInherents _ _ (InherentError ⊕ OtherError)) uncheckedInherents where
  check call found := by
    cases call with
    | productionLog call => rfl
    | other call => rfl
  required errors := by
    have hfound : (xts.any fun xt => xt.isBare &&
        (logInherents s : PalletInherents _ (RuntimeData Producer OtherData)
          (InherentError ⊕ OtherError)).isInherent xt.call) = true :=
      List.any_eq_true.mpr ⟨_, hnamed, rfl⟩
    have hrequired : (logInherents s : PalletInherents (RuntimeCall Producer OtherCall) _
        (InherentError ⊕ OtherError)).isInherentRequired ⟨.ok (some producer), other⟩ =
          .ok (.ok (some (.inl .inherentRequired))) := rfl
    simp only [checkRequired, hrequired, hfound]
    rfl

/-- Whatever the state of the log and the other pallets, a block that names another producer
is rejected exactly when the other pallets reject it. -/
theorem authorIntegrity_iff_others_reject
    (before after : List (PalletInherents OtherCall OtherData OtherError))
    (s : Storage Producer) (producer : Producer) (other : OtherData)
    (xts : Extrinsics Producer OtherCall) :
    AuthorIntegrity before after s producer other xts ↔
      (NamesOther producer xts → OthersReject before after producer other xts) := by
  refine forall_congr' fun hnames => ?_
  obtain ⟨named, -, hmem⟩ := hnames
  have hsame (pallets : List (PalletInherents OtherCall OtherData OtherError)) :
      List.Forall₂ (AnswerAlike ⟨.ok (some producer), other⟩ xts) (pallets.map otherInherents)
        (pallets.map otherInherents) :=
    List.forall₂_same.mpr fun _ _ => ⟨fun _ _ => rfl, fun _ => rfl⟩
  rw [OthersReject, Rejected, Rejected, checkExtrinsics_eq_of_answerAlike]
  exact List.rel_append (hsame before)
    (.cons (logInherents_answerAlike s producer other hmem) (hsame after))

/-- A block that names producer 2 passes the checks of a verifier for which producer 1 has the
slot, and its execution logs producer 2. -/
theorem wrong_producer_accepted_and_logged :
    ¬ AuthorIntegrity ([] : List (PalletInherents Empty Unit Empty)) [] ({} : Storage ℕ) 1 ()
        [⟨true, .productionLog (.append 2)⟩] ∧
      ∃ s, append .none 1 2 ({} : Storage ℕ) = .ok s ∧ (onFinalize 10 s).log = [(10, 2)] := by
  refine ⟨fun h => h ⟨2, by decide, by simp⟩ rfl, _, rfl, rfl⟩

end PartnerChains.ProductionLog
