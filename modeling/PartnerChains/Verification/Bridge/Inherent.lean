import PartnerChains.Model.BridgeChain

/-!
# Accepted bodies of the bridge inherent

The checks compare each call with the expected one and never look at the other calls, so
an author can repeat it.
-/

namespace PartnerChains.Bridge

variable {Recipient : Type}

/-! ## Dispatch -/

theorem foldl_handleIncomingTransfer (transfers : List (BridgeTransferV1 Recipient))
    (r : Runtime Recipient) :
    transfers.foldl handleIncomingTransfer r =
      { r with handled := r.handled ++ transfers } := by
  induction transfers generalizing r with
  | nil => simp
  | cons transfer transfers ih => simp [ih, handleIncomingTransfer]

theorem dispatch_handleTransfers (cfg : Config)
    (transfers : BoundedVec (BridgeTransferV1 Recipient) cfg.maxTransfersPerBlock.toNat)
    (checkpoint : BridgeDataCheckpoint) (r : Runtime Recipient) :
    dispatch cfg .none (.handleTransfers transfers checkpoint) r =
      .ok { handled := r.handled ++ transfers.toList
            storage := { r.storage with dataCheckpoint := some checkpoint } } := by
  simp [dispatch, handleTransfers, putCheckpoint, foldl_handleIncomingTransfer]

theorem executeBody_replicate (cfg : Config)
    (transfers : BoundedVec (BridgeTransferV1 Recipient) cfg.maxTransfersPerBlock.toNat)
    (checkpoint : BridgeDataCheckpoint) (count : ℕ) (r : Runtime Recipient) :
    executeBody cfg (List.replicate (count + 1) (.handleTransfers transfers checkpoint)) r =
      .ok { handled := r.handled ++ (List.replicate (count + 1) transfers.toList).flatten
            storage := { r.storage with dataCheckpoint := some checkpoint } } := by
  induction count generalizing r with
  | zero => simp [executeBody, dispatch_handleTransfers]
  | succ count ih =>
      have hcons : executeBody cfg
          (List.replicate (count + 2) (.handleTransfers transfers checkpoint)) r =
          executeBody cfg (List.replicate (count + 1) (.handleTransfers transfers checkpoint))
            { handled := r.handled ++ transfers.toList
              storage := { r.storage with dataCheckpoint := some checkpoint } } := by
        simp [executeBody, List.replicate_succ, dispatch_handleTransfers]
      rw [hcons, ih]
      simp [List.replicate_succ]

/-! ## Acceptance -/

section Accepted

variable [DecidableEq Recipient] {cfg : Config}
  {body : List (Call Recipient cfg.maxTransfersPerBlock)}

theorem checkInherent_some_iff {call : Call Recipient cfg.maxTransfersPerBlock}
    {data : TokenBridgeTransfersV1 Recipient} :
    checkInherent cfg call (.ok (some data)) = .ok (.ok ()) ↔
      ∃ h : data.transfers.length ≤ cfg.maxTransfersPerBlock.toNat,
        call = .handleTransfers ⟨data.transfers, h⟩ data.dataCheckpoint := by
  by_cases hle : data.transfers.length ≤ cfg.maxTransfersPerBlock.toNat
  · have hcreate : createInherent cfg (.ok (some data)) =
        .ok (some (.handleTransfers ⟨data.transfers, hle⟩ data.dataCheckpoint)) := by
      simp [createInherent, decodeInherentData, BoundedVec.tryFrom_of_le hle]
    by_cases hcall : call = .handleTransfers ⟨data.transfers, hle⟩ data.dataCheckpoint <;>
      simp [checkInherent, hcreate, hcall, hle]
  · simp [checkInherent, createInherent, decodeInherentData, BoundedVec.tryFrom, hle]

theorem acceptedBody_none_iff : AcceptedBody cfg body (.ok none) ↔ body = [] := by
  constructor
  · rintro ⟨hchecks, -⟩
    refine List.eq_nil_iff_forall_not_mem.mpr fun call hmem => ?_
    have hcheck := (hchecks call hmem).2
    simp [checkInherent, createInherent, decodeInherentData] at hcheck
  · rintro rfl
    exact ⟨by simp, .inl rfl⟩

/-- A body is accepted when it is the expected call, repeated any positive number of times. -/
theorem acceptedBody_some_iff {data : TokenBridgeTransfersV1 Recipient} :
    AcceptedBody cfg body (.ok (some data)) ↔
      ∃ (h : data.transfers.length ≤ cfg.maxTransfersPerBlock.toNat) (count : ℕ),
        body = List.replicate (count + 1)
          (.handleTransfers ⟨data.transfers, h⟩ data.dataCheckpoint) := by
  constructor
  · rintro ⟨hchecks, hrequired⟩
    have hne : body ≠ [] := by
      rcases hrequired with hnone | ⟨-, hne⟩
      · simp [isInherentRequired, decodeInherentData] at hnone
      · exact hne
    obtain ⟨call, hcall⟩ := List.exists_mem_of_ne_nil body hne
    obtain ⟨hle, -⟩ := checkInherent_some_iff.mp (hchecks call hcall).2
    have hpos : body.length - 1 + 1 = body.length :=
      Nat.sub_add_cancel (List.length_pos_iff.mpr hne)
    refine ⟨hle, body.length - 1, List.eq_replicate_iff.mpr ⟨hpos.symm, fun call hmem => ?_⟩⟩
    obtain ⟨_, heq⟩ := checkInherent_some_iff.mp (hchecks call hmem).2
    exact heq
  · rintro ⟨hle, count, rfl⟩
    refine ⟨fun call hmem => ?_, .inr ⟨rfl, by simp⟩⟩
    rw [List.eq_of_mem_replicate hmem]
    exact ⟨rfl, checkInherent_some_iff.mpr ⟨hle, rfl⟩⟩

end Accepted

theorem flatten_replicate_eq_self_iff {α : Type*} {xs : List α} {count : ℕ} :
    (List.replicate (count + 1) xs).flatten = xs ↔ count = 0 ∨ xs = [] := by
  constructor
  · intro h
    have hlength := congrArg List.length h
    simp only [List.length_flatten, List.map_replicate, List.sum_replicate, smul_eq_mul,
      Nat.succ_mul] at hlength
    have hmul : count * xs.length = 0 := by omega
    simpa [List.length_eq_zero_iff] using hmul
  · rintro (rfl | rfl)
    · simp
    · simp

/-- An accepted body credits every transfer once exactly when it has a single call or there
is nothing to credit. -/
theorem acceptedBody_creditedOnce_iff [DecidableEq Recipient] (cfg : Config)
    (body : List (Call Recipient cfg.maxTransfersPerBlock))
    (data : InherentSlot (TokenBridgeTransfersV1 Recipient)) (parent : Runtime Recipient)
    (accepted : AcceptedBody cfg body data) :
    (∃ after, executeBody cfg body parent = .ok after ∧ CreditedOnce data parent after) ↔
      body.length = 1 ∨ providedTransfers data = [] := by
  match data with
  | .error _ =>
      rcases accepted.2 with h | ⟨h, -⟩ <;>
        simp [isInherentRequired, decodeInherentData] at h
  | .ok none =>
      rw [acceptedBody_none_iff.mp accepted]
      simp [executeBody, CreditedOnce, providedTransfers]
  | .ok (some data) =>
      obtain ⟨hle, count, rfl⟩ := acceptedBody_some_iff.mp accepted
      rw [executeBody_replicate]
      simp [CreditedOnce, providedTransfers, flatten_replicate_eq_self_iff]

/-- The author of this block puts the expected call in it twice. Every check passes, and the
handler gets the single transfer of the inherent data twice. -/
theorem repeated_inherent_credited_twice :
    let cfg : Config := ⟨4, fun _ => false⟩
    let data : TokenBridgeTransfersV1 ℕ := ⟨[.userTransfer 100 7], .block 10⟩
    let call : Call ℕ 4 := .handleTransfers ⟨data.transfers, by decide⟩ data.dataCheckpoint
    let parent : Runtime ℕ := ⟨⟨none, some (.block 9)⟩, []⟩
    AcceptedBody cfg [call, call] (.ok (some data)) ∧
      executeBody cfg [call, call] parent =
        .ok ⟨⟨none, some (.block 10)⟩, [.userTransfer 100 7, .userTransfer 100 7]⟩ ∧
      ¬ ∃ after, executeBody cfg [call, call] parent = .ok after ∧
        CreditedOnce (.ok (some data)) parent after := by
  refine ⟨⟨by decide, by decide⟩, rfl, ?_⟩
  rintro ⟨after, hok, hhandled, -⟩
  rw [← Except.ok.inj hok] at hhandled
  exact absurd hhandled (by decide)

theorem acceptedBody_creditedOnce_single :
    let cfg : Config := ⟨4, fun _ => false⟩
    let data : TokenBridgeTransfersV1 ℕ := ⟨[.userTransfer 100 7], .block 10⟩
    let call : Call ℕ 4 := .handleTransfers ⟨data.transfers, by decide⟩ data.dataCheckpoint
    let parent : Runtime ℕ := ⟨⟨none, some (.block 9)⟩, []⟩
    AcceptedBody cfg [call] (.ok (some data)) ∧
      ∃ after, executeBody cfg [call] parent = .ok after ∧
        CreditedOnce (.ok (some data)) parent after := by
  intro cfg data call parent
  have accepted : AcceptedBody cfg [call] (.ok (some data)) := ⟨by decide, by decide⟩
  exact ⟨accepted, (acceptedBody_creditedOnce_iff cfg [call] _ parent accepted).mpr (.inl rfl)⟩

end PartnerChains.Bridge
