import PartnerChains.Algorithm.Bridge
import Mathlib.Data.List.AList

/-!
# The transfer handler of the demo runtime

The demo runtime hands bridge transfers to its test helper pallet, which asks the currency to
create the tokens and keeps totals of what it was told.
-/

namespace PartnerChains.Bridge.TestHelper

variable {AccountId Balances : Type} [DecidableEq AccountId]

/-- The runtime around the pallet. The balances are opaque; a deposit always returns. -/
structure Config (AccountId Balances : Type) where
  reserveAccount : AccountId
  depositCreating : Balances → AccountId → ℕ → Balances
  maxTransfersPerBlock : UInt32
  /-- Whether the runtime was built with checks for overflow. -/
  overflowChecks : Bool

structure Storage (AccountId Balances : Type) where
  balances : Balances
  totalInvalidTransfers : ℕ
  totalReserveTransfers : ℕ
  userTransferTotals : AList fun _ : AccountId => ℕ

def Storage.initial (balances : Balances) : Storage AccountId Balances := ⟨balances, 0, 0, ∅⟩

/-- An account without an entry has the default total. -/
def Storage.userTransferTotal (s : Storage AccountId Balances) (recipient : AccountId) : ℕ :=
  (s.userTransferTotals.lookup recipient).getD 0

def handleIncomingTransfer (cfg : Config AccountId Balances) (s : Storage AccountId Balances)
    (transfer : BridgeTransferV1 AccountId) : Except Panic (Storage AccountId Balances) :=
  match transfer with
  | .invalidTransfer tokenAmount _ => do
      -- the closure returns the sum and assigns nothing
      let _ ← Checked.addWith cfg.overflowChecks 64 s.totalInvalidTransfers tokenAmount.toNat
      .ok s
  | .userTransfer tokenAmount recipient => do
      let total ← Checked.addWith cfg.overflowChecks 64 (s.userTransferTotal recipient)
        tokenAmount.toNat
      .ok { s with
        balances := cfg.depositCreating s.balances recipient tokenAmount.toNat
        userTransferTotals := s.userTransferTotals.insert recipient total }
  | .reserveTransfer tokenAmount => do
      let total ← Checked.addWith cfg.overflowChecks 64 s.totalReserveTransfers
        tokenAmount.toNat
      .ok { s with
        balances := cfg.depositCreating s.balances cfg.reserveAccount tokenAmount.toNat
        totalReserveTransfers := total }

/-- The bridge pallet, which has the transfers it handed over, and its handler. -/
structure Runtime (AccountId Balances : Type) where
  bridge : Bridge.Runtime AccountId
  testHelper : Storage AccountId Balances

def handleTransfers (cfg : Config AccountId Balances) (origin : Origin)
    (transfers : List (BridgeTransferV1 AccountId)) (dataCheckpoint : BridgeDataCheckpoint)
    (r : Runtime AccountId Balances) :
    Except Panic (Except DispatchError (Runtime AccountId Balances)) :=
  match Bridge.handleTransfers origin transfers dataCheckpoint r.bridge with
  | .error error => .ok (.error error)
  | .ok bridge => do
      let testHelper ← transfers.foldlM (handleIncomingTransfer cfg) r.testHelper
      .ok (.ok ⟨bridge, testHelper⟩)

end PartnerChains.Bridge.TestHelper
