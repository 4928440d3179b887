import PartnerChains.Library.KeyedSum
import PartnerChains.Algorithm.BridgeTestHelper
import PartnerChains.Verification.Bridge.Inherent

/-!
# The totals of the demo runtime

User and reserve totals are the sums of what was handed over. The total of invalid transfers stays
where it began, so that it is right only as long as invalid transfers carry nothing.
-/

namespace PartnerChains.Bridge.TestHelper

open Fallible

variable {AccountId Balances : Type} [DecidableEq AccountId]
  {log transfers : List (BridgeTransferV1 AccountId)}
  {transfer : BridgeTransferV1 AccountId} {s : Storage AccountId Balances}

/-! ## Reported amounts -/

def isInvalid : BridgeTransferV1 AccountId → Bool
  | .invalidTransfer .. => true
  | _ => false

def isReserve : BridgeTransferV1 AccountId → Bool
  | .reserveTransfer _ => true
  | _ => false

def isUser : BridgeTransferV1 AccountId → Bool
  | .userTransfer .. => true
  | _ => false

def isFor (account : AccountId) : BridgeTransferV1 AccountId → Bool
  | .userTransfer _ recipient => recipient = account
  | _ => false

/-- The tokens of the transfers of one kind. -/
def reported (kind : BridgeTransferV1 AccountId → Bool)
    (log : List (BridgeTransferV1 AccountId)) : ℕ :=
  ((log.filter kind).map (·.tokenAmount.toNat)).sum

omit [DecidableEq AccountId] in
theorem reported_append (kind : BridgeTransferV1 AccountId → Bool) :
    reported kind (log ++ transfers) = reported kind log + reported kind transfers := by
  simp [reported]

omit [DecidableEq AccountId] in
theorem reported_singleton (kind : BridgeTransferV1 AccountId → Bool) :
    reported kind [transfer] = if kind transfer then transfer.tokenAmount.toNat else 0 := by
  cases h : kind transfer <;> simp [reported, h]

omit [DecidableEq AccountId] in
theorem reported_kinds (log : List (BridgeTransferV1 AccountId)) :
    reported isInvalid log + reported isReserve log + reported isUser log =
      (log.map (·.tokenAmount.toNat)).sum := by
  induction log with
  | nil => rfl
  | cons transfer log ih =>
      rw [← List.singleton_append]
      simp only [reported_append, reported_singleton, List.map_append, List.sum_append, ← ih]
      cases transfer <;> simp [isInvalid, isReserve, isUser] <;> omega

/-- The totals of the handled transfers are numbers of 64 bits. -/
structure Fits (log : List (BridgeTransferV1 AccountId)) : Prop where
  invalid : reported isInvalid log < 2 ^ 64
  reserve : reported isReserve log < 2 ^ 64
  user : ∀ account, reported (isFor account) log < 2 ^ 64

theorem Fits.of_append (h : Fits (log ++ transfers)) : Fits log := by
  refine ⟨?_, ?_, fun account => ?_⟩
  · exact lt_of_le_of_lt (by simp [reported_append]) h.invalid
  · exact lt_of_le_of_lt (by simp [reported_append]) h.reserve
  · exact lt_of_le_of_lt (by simp [reported_append]) (h.user account)

/-- What the recorded totals should be. -/
structure Accounted (log : List (BridgeTransferV1 AccountId)) (s : Storage AccountId Balances) :
    Prop where
  invalid : s.totalInvalidTransfers = reported isInvalid log
  reserve : s.totalReserveTransfers = reported isReserve log
  user : ∀ account, s.userTransferTotal account = reported (isFor account) log
  together : s.totalInvalidTransfers + s.totalReserveTransfers +
    KeyedSum.total id s.userTransferTotals = (log.map (·.tokenAmount.toNat)).sum

/-! ## One transfer -/

/-- What the recorded totals are. -/
structure Recorded (log : List (BridgeTransferV1 AccountId)) (s : Storage AccountId Balances) :
    Prop where
  invalid : s.totalInvalidTransfers = 0
  reserve : s.totalReserveTransfers = reported isReserve log
  user : ∀ account, s.userTransferTotal account = reported (isFor account) log
  users : KeyedSum.total id s.userTransferTotals = reported isUser log

theorem Recorded.initial (balances : Balances) :
    Recorded [] (Storage.initial balances : Storage AccountId Balances) :=
  ⟨rfl, rfl, fun _ => rfl, rfl⟩

theorem Recorded.handleIncomingTransfer (cfg : Config AccountId Balances) (h : Recorded log s)
    (fits : Fits (log ++ [transfer])) :
    ∃ s', handleIncomingTransfer cfg s transfer = .ok s' ∧ Recorded (log ++ [transfer]) s' := by
  cases transfer with
  | invalidTransfer tokenAmount utxoId =>
      have hsum : s.totalInvalidTransfers + tokenAmount.toNat < 2 ^ 64 := by
        rw [h.invalid, Nat.zero_add]
        exact tokenAmount.toNat_lt
      refine ⟨s, ?_, h.invalid, ?_, fun account => ?_, ?_⟩
      · simp [TestHelper.handleIncomingTransfer, Checked.addWith_of_lt _ hsum]
      · simp [h.reserve, reported_append, reported_singleton, isReserve]
      · simp [h.user, reported_append, reported_singleton, isFor]
      · simp [h.users, reported_append, reported_singleton, isUser]
  | reserveTransfer tokenAmount =>
      have hsum : s.totalReserveTransfers + tokenAmount.toNat < 2 ^ 64 := by
        have hfits := fits.reserve
        rwa [reported_append, reported_singleton, ← h.reserve] at hfits
      refine ⟨{ s with
        balances := cfg.depositCreating s.balances cfg.reserveAccount tokenAmount.toNat
        totalReserveTransfers := s.totalReserveTransfers + tokenAmount.toNat },
        ?_, h.invalid, ?_, fun account => ?_, ?_⟩
      · simp [TestHelper.handleIncomingTransfer, Checked.addWith_of_lt _ hsum]
      · simp [h.reserve, reported_append, reported_singleton, isReserve,
          BridgeTransferV1.tokenAmount]
      · rw [reported_append, reported_singleton]
        exact h.user account
      · simp [h.users, reported_append, reported_singleton, isUser]
  | userTransfer tokenAmount recipient =>
      have hsum : s.userTransferTotal recipient + tokenAmount.toNat < 2 ^ 64 := by
        have hfits := fits.user recipient
        rw [reported_append, reported_singleton, ← h.user] at hfits
        simpa [isFor, BridgeTransferV1.tokenAmount] using hfits
      refine ⟨{ s with
        balances := cfg.depositCreating s.balances recipient tokenAmount.toNat
        userTransferTotals := s.userTransferTotals.insert recipient
          (s.userTransferTotal recipient + tokenAmount.toNat) },
        ?_, h.invalid, ?_, fun account => ?_, ?_⟩
      · simp [TestHelper.handleIncomingTransfer, Checked.addWith_of_lt _ hsum]
      · simp [h.reserve, reported_append, reported_singleton, isReserve]
      · rw [reported_append, reported_singleton, ← h.user account]
        by_cases haccount : account = recipient
        · subst haccount
          simp [Storage.userTransferTotal, isFor, BridgeTransferV1.tokenAmount]
        · simp [Storage.userTransferTotal, isFor, AList.lookup_insert_ne haccount,
            Ne.symm haccount]
      · rw [reported_append, reported_singleton, ← h.users]
        exact KeyedSum.total_insert_add recipient tokenAmount.toNat

/-! ## Runs -/

theorem Recorded.foldlM (cfg : Config AccountId Balances) (h : Recorded log s)
    (fits : Fits (log ++ transfers)) :
    ∃ s', transfers.foldlM (TestHelper.handleIncomingTransfer cfg) s = .ok s' ∧
      Recorded (log ++ transfers) s' := by
  induction transfers generalizing log s with
  | nil => exact ⟨s, rfl, by simpa using h⟩
  | cons transfer transfers ih =>
      rw [← List.singleton_append, ← List.append_assoc] at fits ⊢
      obtain ⟨next, hnext, hrecorded⟩ := h.handleIncomingTransfer cfg fits.of_append
      obtain ⟨s', hs', hrest⟩ := ih hrecorded fits
      exact ⟨s', by rw [List.singleton_append, List.foldlM_cons, hnext]; exact hs', hrest⟩

theorem handleTransfers_of_foldlM {cfg : Config AccountId Balances}
    {r : Runtime AccountId Balances} {testHelper : Storage AccountId Balances}
    (h : transfers.foldlM (handleIncomingTransfer cfg) r.testHelper = .ok testHelper)
    (dataCheckpoint : BridgeDataCheckpoint) :
    handleTransfers cfg .none transfers dataCheckpoint r =
      .ok (.ok ⟨⟨{ r.bridge.storage with dataCheckpoint := some dataCheckpoint },
        r.bridge.handled ++ transfers⟩, testHelper⟩) := by
  simp [handleTransfers, Bridge.handleTransfers, foldl_handleIncomingTransfer, putCheckpoint, h]

/-- The inherent of one block. -/
structure Inherent (AccountId : Type) (maxTransfersPerBlock : UInt32) where
  transfers : BoundedVec (BridgeTransferV1 AccountId) maxTransfersPerBlock.toNat
  dataCheckpoint : BridgeDataCheckpoint

/-- One inherent after the other. A refused call leaves the state as it is. -/
def executeInherents (cfg : Config AccountId Balances)
    (inherents : List (Inherent AccountId cfg.maxTransfersPerBlock))
    (r : Runtime AccountId Balances) : Except Panic (Runtime AccountId Balances) :=
  inherents.foldlM (fun r inherent => do
    match ← handleTransfers cfg .none inherent.transfers.toList inherent.dataCheckpoint r with
    | .ok r' => .ok r'
    | .error _ => .ok r) r

theorem executeInherents_cons {cfg : Config AccountId Balances}
    {inherent : Inherent AccountId cfg.maxTransfersPerBlock} {r next : Runtime AccountId Balances}
    (h : handleTransfers cfg .none inherent.transfers.toList inherent.dataCheckpoint r =
      .ok (.ok next)) (inherents : List (Inherent AccountId cfg.maxTransfersPerBlock)) :
    executeInherents cfg (inherent :: inherents) r = executeInherents cfg inherents next := by
  rw [executeInherents, List.foldlM_cons, h]
  rfl

def reportedTransfers {maxTransfersPerBlock : UInt32}
    (inherents : List (Inherent AccountId maxTransfersPerBlock)) :
    List (BridgeTransferV1 AccountId) :=
  inherents.flatMap (·.transfers.toList)

theorem executeInherents_recorded (cfg : Config AccountId Balances)
    (inherents : List (Inherent AccountId cfg.maxTransfersPerBlock))
    (r : Runtime AccountId Balances) (h : Recorded r.bridge.handled r.testHelper)
    (fits : Fits (r.bridge.handled ++ reportedTransfers inherents)) :
    ∃ r', executeInherents cfg inherents r = .ok r' ∧
      r'.bridge.handled = r.bridge.handled ++ reportedTransfers inherents ∧
      Recorded r'.bridge.handled r'.testHelper := by
  induction inherents generalizing r with
  | nil => exact ⟨r, rfl, by simp [reportedTransfers], h⟩
  | cons inherent inherents ih =>
      have hall : reportedTransfers (inherent :: inherents) =
          inherent.transfers.toList ++ reportedTransfers inherents := by
        simp [reportedTransfers]
      rw [hall, ← List.append_assoc] at fits ⊢
      obtain ⟨testHelper, hfold, hrecorded⟩ := h.foldlM cfg fits.of_append
      rw [executeInherents_cons (handleTransfers_of_foldlM hfold inherent.dataCheckpoint)]
      exact ih _ hrecorded fits

/-- After any run all totals are right exactly when no invalid transfer carried tokens. -/
theorem totals_accounted_iff (cfg : Config AccountId Balances) (balances : Balances)
    (storage : Bridge.Storage) (inherents : List (Inherent AccountId cfg.maxTransfersPerBlock))
    (fits : Fits (reportedTransfers inherents)) :
    ∃ r, executeInherents cfg inherents ⟨⟨storage, []⟩, Storage.initial balances⟩ = .ok r ∧
      r.bridge.handled = reportedTransfers inherents ∧
      (Accounted r.bridge.handled r.testHelper ↔
        ∀ transfer ∈ reportedTransfers inherents,
          isInvalid transfer → transfer.tokenAmount = 0) := by
  obtain ⟨r, hr, hhandled, hrecorded⟩ := executeInherents_recorded cfg inherents
    ⟨⟨storage, []⟩, Storage.initial balances⟩ (Recorded.initial balances) (by simpa using fits)
  rw [List.nil_append] at hhandled
  refine ⟨r, hr, hhandled, ?_⟩
  have hzero : reported isInvalid r.bridge.handled = 0 ↔
      ∀ transfer ∈ reportedTransfers inherents, isInvalid transfer → transfer.tokenAmount = 0 := by
    rw [hhandled, reported, List.sum_eq_zero_iff, List.forall_mem_map]
    simp [← UInt64.toNat_inj]
  rw [← hzero]
  constructor
  · intro h
    rw [← h.invalid, hrecorded.invalid]
  · intro h
    refine ⟨by rw [h, hrecorded.invalid], hrecorded.reserve, hrecorded.user, ?_⟩
    rw [← reported_kinds, h, hrecorded.invalid, hrecorded.reserve, hrecorded.users]

/-- A runtime that leaves balances to another pallet. -/
def demoConfig : Config ℕ Unit := ⟨1, fun _ _ _ => (), 256, false⟩

def userAndReserve : List (Inherent ℕ demoConfig.maxTransfersPerBlock) :=
  [⟨⟨[.userTransfer 5 3, .reserveTransfer 7], by decide⟩, .block 10⟩]

theorem totals_accounted_iff_userAndReserve :
    ∃ r, executeInherents demoConfig userAndReserve ⟨⟨⟨none, none⟩, []⟩, Storage.initial ()⟩ =
      .ok r ∧ Accounted r.bridge.handled r.testHelper := by
  have fits : Fits (reportedTransfers userAndReserve) := by
    refine ⟨by decide, by decide, fun account => ?_⟩
    have hreported : reported (isFor account) (reportedTransfers userAndReserve) =
        if 3 = account then 5 else 0 := by
      by_cases h : 3 = account <;>
        simp [reported, reportedTransfers, userAndReserve, isFor, h, BridgeTransferV1.tokenAmount]
    rw [hreported]
    split <;> decide
  obtain ⟨r, hr, -, hiff⟩ := totals_accounted_iff demoConfig () ⟨none, none⟩ userAndReserve fits
  exact ⟨r, hr, hiff.mpr (by decide)⟩

def invalidDeposit : List (Inherent ℕ demoConfig.maxTransfersPerBlock) :=
  [⟨⟨[.invalidTransfer 100 ⟨.filled 32 7, 0⟩], by decide⟩, .block 10⟩]

/-- A deposit without a datum is an invalid transfer and leaves no trace in the totals. -/
theorem invalidDeposit_not_recorded :
    ∃ r, executeInherents demoConfig invalidDeposit ⟨⟨⟨none, none⟩, []⟩, Storage.initial ()⟩ =
        .ok r ∧ Fits r.bridge.handled ∧ reported isInvalid r.bridge.handled = 100 ∧
      r.testHelper.totalInvalidTransfers = 0 ∧ ¬ Accounted r.bridge.handled r.testHelper := by
  refine ⟨_, rfl, ⟨by decide, by decide, fun _ => Nat.two_pow_pos 64⟩, rfl, rfl, fun h => ?_⟩
  exact absurd h.invalid (by decide)

end PartnerChains.Bridge.TestHelper
