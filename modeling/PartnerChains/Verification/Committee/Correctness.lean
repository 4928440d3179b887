import PartnerChains.Model.CommitteeChain
import PartnerChains.Verification.Committee.Rotation

/-! # Committees enter service one epoch after the other -/

namespace PartnerChains.Committee

variable {Member AccountId AuthorityKeys Inputs : Type} {maxValidators : ℕ}

theorem epoch_lt_add_one {epoch bound : ScEpochNumber} (h : epoch < bound) :
    (epoch + 1).toNat = epoch.toNat + 1 := by
  have hlt : epoch.toNat < bound.toNat := h
  have hbound := bound.toNat_lt
  rw [UInt64.toNat_add, UInt64.toNat_one]
  omega

/-- The epochs of the committees that entered service are consecutive. -/
def Consecutive (committees : List (CommitteeInfo Member maxValidators)) : Prop :=
  ∃ first, committees.map (·.epoch.toNat) = List.range' first committees.length

theorem consecutive_singleton (committee : CommitteeInfo Member maxValidators) :
    Consecutive [committee] :=
  ⟨committee.epoch.toNat, rfl⟩

theorem Consecutive.append {committees : List (CommitteeInfo Member maxValidators)}
    (h : Consecutive committees) {last next : CommitteeInfo Member maxValidators}
    (hlast : committees.getLast? = some last)
    (hnext : next.epoch.toNat = last.epoch.toNat + 1) :
    Consecutive (committees ++ [next]) := by
  obtain ⟨first, hfirst⟩ := h
  obtain ⟨init, rfl⟩ := List.getLast?_eq_some_iff.mp hlast
  simp only [List.map_append, List.map_cons, List.map_nil, List.length_append,
    List.length_cons, List.length_nil, zero_add, List.range'_1_concat] at hfirst
  obtain ⟨-, htail⟩ := List.append_inj hfirst (by simp)
  have hval : last.epoch.toNat = first + init.length := by simpa using htail
  refine ⟨first, ?_⟩
  rw [List.map_append, List.map_append, List.length_append, List.length_append]
  simp only [List.map_cons, List.map_nil, List.length_cons, List.length_nil, zero_add,
    List.range'_1_concat]
  rw [hnext, hval, ← hfirst]
  simp [hval]
  omega

section Invariant

variable [DecidableEq Member]

/-- What the committee storage and the committees seen so far have to do with each other. -/
structure Invariant (trace : List (Event Member maxValidators))
    (chain : Chain Member AccountId AuthorityKeys maxValidators) : Prop where
  idle : chain.number = 0 → served trace = [] ∧ chain.runtime.management.nextCommittee = none
  in_service : 0 < chain.number →
    (served trace).getLast? = some chain.runtime.management.currentCommittee
  epoch_le : 0 < chain.number →
    chain.runtime.management.currentCommittee.epoch ≤ chain.currentEpochNumber
  consecutive : Consecutive (served trace)
  next_epoch : ∀ next, chain.runtime.management.nextCommittee = some next →
    next.epoch = chain.runtime.management.currentCommittee.epoch + 1
  delivered : served trace ++ chain.runtime.management.nextCommittee.toList =
    (served trace).take 1 ++ stored trace

theorem invariant_genesis (cfg : Config Member AccountId AuthorityKeys Inputs maxValidators)
    (genesis : GenesisConfig Member) :
    Invariant [] (⟨0, 0, genesisRuntime cfg genesis⟩ :
      Chain Member AccountId AuthorityKeys maxValidators) where
  idle _ := ⟨rfl, rfl⟩
  in_service h := absurd h (lt_irrefl 0)
  epoch_le h := absurd h (lt_irrefl 0)
  consecutive := ⟨0, rfl⟩
  next_epoch _ h := by cases h
  delivered := rfl

variable {trace : List (Event Member maxValidators)}
  {chain : Chain Member AccountId AuthorityKeys maxValidators}
variable {epoch : ScEpochNumber} {runtime : Runtime Member AccountId AuthorityKeys maxValidators}

/-- The first block puts the genesis committee into service for its own epoch. -/
theorem Invariant.initFirst (inv : Invariant trace chain) (hnumber : chain.number = 0)
    (hruntime : runtime.management =
      rotated epoch (onInitialize (chain.number + 1) epoch chain.runtime.management)) :
    Invariant (trace ++ [.initialized runtime.management.currentCommittee])
      (⟨chain.number + 1, epoch, runtime⟩ :
        Chain Member AccountId AuthorityKeys maxValidators) := by
  obtain ⟨hserved, hnone⟩ := inv.idle hnumber
  have hstored : stored trace = [] := by simpa [hserved, hnone] using inv.delivered
  have hnone' : (onInitialize (chain.number + 1) epoch
      chain.runtime.management).nextCommittee = none := by
    simp [onInitialize, hnumber, hnone]
  rw [rotated_of_none hnone'] at hruntime
  have hepoch : runtime.management.currentCommittee.epoch = epoch := by
    simp [hruntime, onInitialize, hnumber]
  have hnext : runtime.management.nextCommittee = none := by rw [hruntime, hnone']
  exact {
    idle := fun h => absurd h (Nat.succ_ne_zero _)
    in_service := fun _ => by simp [observe, hserved]
    epoch_le := fun _ => by simp [hepoch]
    consecutive := by simpa [observe, hserved] using consecutive_singleton _
    next_epoch := fun next h => by simp [hnext] at h
    delivered := by simp [observe, hserved, hnext, hstored, Event.stored?] }

/-- A later block that does not rotate keeps the committee in service. -/
theorem Invariant.initSame (inv : Invariant trace chain) (hnumber : 0 < chain.number)
    (hepoch : chain.currentEpochNumber ≤ epoch)
    (hruntime : runtime.management = chain.runtime.management) :
    Invariant (trace ++ [.initialized runtime.management.currentCommittee])
      (⟨chain.number + 1, epoch, runtime⟩ :
        Chain Member AccountId AuthorityKeys maxValidators) := by
  have hserved : served (trace ++ [.initialized runtime.management.currentCommittee]) =
      served trace := by
    simp [observe, hruntime, inv.in_service hnumber]
  exact {
    idle := fun h => absurd h (Nat.succ_ne_zero _)
    in_service := fun _ => by rw [hserved, hruntime, inv.in_service hnumber]
    epoch_le := fun _ => by
      rw [hruntime]
      exact UInt64.le_trans (inv.epoch_le hnumber) hepoch
    consecutive := by simpa only [hserved] using inv.consecutive
    next_epoch := by simpa only [hruntime] using inv.next_epoch
    delivered := by
      rw [hserved]
      simpa [hruntime, Event.stored?] using inv.delivered }

/-- A rotation puts the stored committee into service right after its predecessor. -/
theorem Invariant.initRotated (inv : Invariant trace chain) (hnumber : 0 < chain.number)
    {next : CommitteeInfo Member maxValidators}
    (hnext : chain.runtime.management.nextCommittee = some next)
    (hlt : chain.runtime.management.currentCommittee.epoch < epoch)
    (hruntime : runtime.management =
      { chain.runtime.management with currentCommittee := next, nextCommittee := none }) :
    Invariant (trace ++ [.initialized runtime.management.currentCommittee])
      (⟨chain.number + 1, epoch, runtime⟩ :
        Chain Member AccountId AuthorityKeys maxValidators) := by
  have hlast := inv.in_service hnumber
  have hsucc : next.epoch.toNat =
      chain.runtime.management.currentCommittee.epoch.toNat + 1 := by
    rw [inv.next_epoch next hnext, epoch_lt_add_one hlt]
  have hne : chain.runtime.management.currentCommittee ≠ next := by
    intro heq
    rw [heq] at hsucc
    omega
  have hserved : served (trace ++ [.initialized runtime.management.currentCommittee]) =
      served trace ++ [next] := by
    simp [observe, hruntime, hlast, hne]
  have hne_nil : served trace ≠ [] := by
    intro hnil
    simp [hnil] at hlast
  exact {
    idle := fun h => absurd h (Nat.succ_ne_zero _)
    in_service := fun _ => by
      rw [hserved]
      simp [hruntime]
    epoch_le := fun _ => by
      have hlt' : chain.runtime.management.currentCommittee.epoch.toNat < epoch.toNat := hlt
      show runtime.management.currentCommittee.epoch.toNat ≤ epoch.toNat
      simp only [hruntime, hsucc]
      omega
    consecutive := by
      rw [hserved]
      exact inv.consecutive.append hlast hsucc
    next_epoch := fun _ h => by simp [hruntime] at h
    delivered := by
      have h := inv.delivered
      rw [hnext] at h
      rw [hserved, List.take_append_of_le_length
        (List.length_pos_iff.mpr hne_nil)]
      simpa [hruntime, Event.stored?] using h }

theorem Invariant.initBlock (inv : Invariant trace chain)
    {cfg : Config Member AccountId AuthorityKeys Inputs maxValidators}
    (hepoch : chain.currentEpochNumber ≤ epoch)
    (h : initializeBlock cfg (chain.number + 1) epoch chain.runtime = .ok runtime) :
    Invariant (trace ++ [.initialized runtime.management.currentCommittee])
      (⟨chain.number + 1, epoch, runtime⟩ :
        Chain Member AccountId AuthorityKeys maxValidators) := by
  obtain ⟨runtime', hok, hruntime⟩ :=
    initializeBlock_spec cfg (chain.number + 1) epoch chain.runtime
  obtain rfl : runtime' = runtime := Except.ok.inj (hok.symm.trans h)
  rcases Nat.eq_zero_or_pos chain.number with hzero | hpos
  · exact inv.initFirst hzero hruntime
  · have hkeep : onInitialize (chain.number + 1) epoch chain.runtime.management =
        chain.runtime.management := if_neg (by omega)
    rw [hkeep] at hruntime
    cases hnext : chain.runtime.management.nextCommittee with
    | none =>
        rw [rotated_of_none hnext] at hruntime
        exact inv.initSame hpos hepoch hruntime
    | some next =>
        by_cases hlt : chain.runtime.management.currentCommittee.epoch < epoch
        · rw [rotated_of_lt hnext hlt] at hruntime
          exact inv.initRotated hpos hnext hlt hruntime
        · rw [rotated_of_le (UInt64.not_lt.mp hlt)] at hruntime
          exact inv.initSame hpos hepoch hruntime

/-- An event that brings no committee into service and stores none. -/
theorem Invariant.unchanged (inv : Invariant trace chain) {event : Event Member maxValidators}
    (hserved : served (trace ++ [event]) = served trace)
    (hstored : stored (trace ++ [event]) = stored trace)
    {management : Storage Member maxValidators}
    (hcurrent : management.currentCommittee = chain.runtime.management.currentCommittee)
    (hnext : management.nextCommittee = chain.runtime.management.nextCommittee) :
    Invariant (trace ++ [event])
      { chain with runtime := { chain.runtime with management } } where
  idle := by simpa only [hserved, hnext] using inv.idle
  in_service := by simpa only [hserved, hcurrent] using inv.in_service
  epoch_le := by simpa only [hcurrent] using inv.epoch_le
  consecutive := by simpa only [hserved] using inv.consecutive
  next_epoch := by simpa only [hcurrent, hnext] using inv.next_epoch
  delivered := by simpa only [hserved, hstored, hnext] using inv.delivered

theorem Invariant.accept (inv : Invariant trace chain) (hnumber : 0 < chain.number)
    {cfg : Config Member AccountId AuthorityKeys Inputs maxValidators} {origin : Origin}
    {call : Call Member maxValidators} {management : Storage Member maxValidators}
    (h : dispatch cfg origin call chain.runtime.management = .ok management) :
    Invariant (trace ++ [.accepted call])
      { chain with runtime := { chain.runtime with management } } := by
  rcases dispatch_cases h with ⟨validators, hash, rfl, hnone, rfl⟩ | ⟨_, _, _, rfl, rfl⟩
  · exact {
      idle := fun hzero => absurd hzero hnumber.ne'
      in_service := by simpa [observe] using inv.in_service
      epoch_le := inv.epoch_le
      consecutive := by simpa [observe] using inv.consecutive
      next_epoch := fun _ hsome => by simp [← Option.some.inj hsome]
      delivered := by
        have hdelivered := inv.delivered
        simp only [hnone, Option.toList_none, List.append_nil] at hdelivered
        simp only [served_append_singleton, stored_append_singleton, observe, Event.stored?,
          Option.toList_some]
        rw [← List.append_assoc, ← hdelivered] }
  · exact inv.unchanged (by simp [observe]) (by simp [Event.stored?]) rfl rfl

theorem Invariant.reject (inv : Invariant trace chain) (call : Call Member maxValidators)
    (error : DispatchError) : Invariant (trace ++ [.rejected call error]) chain :=
  inv.unchanged (by simp [observe]) (by simp [Event.stored?]) rfl rfl

theorem invariant_run (cfg : Config Member AccountId AuthorityKeys Inputs maxValidators)
    (genesis : GenesisConfig Member) (run : (system cfg genesis).Run trace chain) :
    Invariant trace chain := by
  refine run.invariant (P := Invariant) ?_ ?_
  · rintro _ rfl
    exact invariant_genesis cfg genesis
  · intro trace chain event chain' inv step
    cases step with
    | initBlock hepoch h => exact inv.initBlock hepoch h
    | accept hnumber h => exact inv.accept hnumber h
    | reject _ _ => exact inv.reject _ _

/-- Committees enter service epoch by epoch: the stored committee is always the one of the
epoch after the current one, the committees that entered service and the one waiting are
the first committee followed by all the stored ones, and no session ends without a
committee to start the next. -/
theorem committees_enter_service_in_order
    (cfg : Config Member AccountId AuthorityKeys Inputs maxValidators)
    (genesis : GenesisConfig Member) (run : (system cfg genesis).Run trace chain) :
    (∀ next, chain.runtime.management.nextCommittee = some next →
        next.epoch = chain.runtime.management.currentCommittee.epoch + 1) ∧
      Consecutive (served trace) ∧
      served trace ++ chain.runtime.management.nextCommittee.toList =
        (served trace).take 1 ++ stored trace ∧
      (0 < chain.number →
        (served trace).getLast? = some chain.runtime.management.currentCommittee ∧
          chain.runtime.management.currentCommittee.epoch ≤ chain.currentEpochNumber) ∧
      (∀ epoch, ∃ runtime,
        initializeBlock cfg (chain.number + 1) epoch chain.runtime = .ok runtime) ∧
      ∀ (runtime : Runtime Member AccountId AuthorityKeys maxValidators) epoch newIndex,
        shouldEndSession cfg epoch runtime.management = true →
          ∃ validators runtime', newSession cfg newIndex runtime = .ok (validators, runtime') := by
  have inv := invariant_run cfg genesis run
  refine ⟨inv.next_epoch, inv.consecutive, inv.delivered,
    fun h => ⟨inv.in_service h, inv.epoch_le h⟩, fun epoch => ?_, ?_⟩
  · obtain ⟨runtime, hok, -⟩ :=
      initializeBlock_spec cfg (chain.number + 1) epoch chain.runtime
    exact ⟨runtime, hok⟩
  · intro runtime epoch newIndex hend
    obtain ⟨-, next, hnext⟩ := shouldEndSession_iff.mp hend
    exact ⟨_, _, newSession_of_next cfg newIndex hnext⟩

end Invariant

/-- The first block is in epoch 7. A committee for epoch 8 is stored, a second one is rejected, and
the block of epoch 8 starts with the stored one. -/
theorem committees_enter_service_in_order_two_epochs :
    let cfg : Config ℕ ℕ ℕ ℕ 4 :=
      ⟨fun _ _ => none, id, id, fun _ => Bytes.filled 32 0, fun _ => true⟩
    let genesis : GenesisConfig ℕ := ⟨[1], ⟨"", Bytes.filled 28 0, Bytes.filled 28 0⟩⟩
    ∃ (trace : List (Event ℕ 4)) (chain : Chain ℕ ℕ ℕ 4),
      (system cfg genesis).Run trace chain ∧
        (served trace).map (fun info => (info.epoch, info.committee.toList)) =
          [(7, [1]), (8, [2, 3])] ∧
        Consecutive (served trace) := by
  intro cfg genesis
  let call (members : List ℕ) (h : members.length ≤ 4) : Call ℕ 4 :=
    .set ⟨members, h⟩ 8 (Bytes.filled 32 0)
  have first : Step cfg ⟨0, 0, genesisRuntime cfg genesis⟩ _ ⟨1, 7, _⟩ :=
    .initBlock (by decide) rfl
  have run := System.Run.step (M := system cfg genesis) (.start rfl) first
  have run := run.step (@Step.accept _ _ _ _ _ cfg _ .none (call [2, 3] (by decide)) _
    Nat.one_pos rfl)
  have run := run.step (@Step.reject _ _ _ _ _ cfg _ .none (call [4] (by decide)) _
    Nat.one_pos rfl)
  have run := run.step (@Step.initBlock _ _ _ _ _ cfg _ 8 _ (by decide) rfl)
  exact ⟨_, _, run, rfl, (committees_enter_service_in_order cfg genesis run).2.1⟩

end PartnerChains.Committee
