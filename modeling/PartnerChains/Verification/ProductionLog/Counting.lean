import PartnerChains.Model.ProductionChain

/-!
# Block production is counted exactly once

The logged blocks are the reported ones followed by those in the log. The log is sorted, so
that searching for the end of a prefix finds what scanning it shows.
-/

namespace PartnerChains.ProductionLog

open Fallible

variable {Producer : Type} {search : PartitionPoint (Slot × Producer)}

def Storage.Sorted (s : Storage Producer) : Prop :=
  s.log.Pairwise fun a b => a.1 < b.1

/-! ## Prefixes -/

variable {s : Storage Producer}

theorem Storage.Sorted.partitioned (h : s.Sorted) (slot : Slot) :
    PartitionPoint.Partitioned (fun entry : Slot × Producer => decide (entry.1 ≤ slot)) s.log :=
  PartitionPoint.partitioned_of_sorted h slot

theorem Storage.Sorted.peekPrefix_append_dropPrefix (h : s.Sorted)
    (search : PartitionPoint (Slot × Producer)) (slot : Slot) :
    peekPrefix slot s ++ (dropPrefix search slot s).log = s.log := by
  simp only [peekPrefix, dropPrefix, search.drop_find (h.partitioned slot)]
  exact List.takeWhile_append_dropWhile

theorem Storage.Sorted.takePrefix_eq (h : s.Sorted) (search : PartitionPoint (Slot × Producer))
    (slot : Slot) :
    takePrefix search slot s = (peekPrefix slot s, dropPrefix search slot s) := by
  simp only [takePrefix, peekPrefix, dropPrefix, search.take_find (h.partitioned slot)]

/-! ## One block -/

theorem dispatchAppend_eq_ok {number : ℕ} {author : Option Producer} {r r' : Runtime Producer}
    (h : dispatchAppend number author r = .ok r') :
    r'.productionLog.log = r.productionLog.log ∧
      (r.productionLog.currentProducer = none → r'.productionLog.currentProducer = author) := by
  cases author with
  | none =>
      obtain rfl := Except.ok.inj h
      exact ⟨rfl, id⟩
  | some producer =>
      obtain ⟨log, hlog, hr⟩ := bind_eq_ok_iff.mp h
      obtain rfl := Except.ok.inj hr
      simp only [append] at hlog
      split_ifs at hlog
      obtain rfl := Except.ok.inj hlog
      exact ⟨rfl, fun _ => rfl⟩

/-- What is released is what is removed. -/
theorem dispatchNoteProcessing_eq_ok {release : Option Slot} {parent r r' : Runtime Producer}
    (hsorted : parent.productionLog.Sorted)
    (hlog : r.productionLog.log = parent.productionLog.log)
    (h : dispatchNoteProcessing search
      (ParticipationInherentDataProvider.new release parent).upToSlot? r = .ok r') :
    (ParticipationInherentDataProvider.new release parent).blocksProduced ++
        r'.productionLog.log = parent.productionLog.log ∧
      r'.productionLog.currentProducer = r.productionLog.currentProducer := by
  cases release with
  | none =>
      obtain rfl := Except.ok.inj h
      exact ⟨hlog, rfl⟩
  | some slot =>
      simp only [ParticipationInherentDataProvider.new,
        ParticipationInherentDataProvider.upToSlot?, dispatchNoteProcessing,
        noteProcessing] at h
      split_ifs at h
      obtain rfl := Except.ok.inj h
      refine ⟨?_, rfl⟩
      have hdrop : (dropPrefix search slot r.productionLog).log =
          (dropPrefix search slot parent.productionLog).log := by
        simp only [dropPrefix, hlog]
      rw [hdrop]
      exact hsorted.peekPrefix_append_dropPrefix search slot

theorem onFinalize_spec (slot : Slot) (s : Storage Producer) :
    (onFinalize slot s).log = s.log ++ (s.currentProducer.map fun author => (slot, author)).toList ∧
      (onFinalize slot s).currentProducer = none := by
  unfold onFinalize
  cases h : s.currentProducer <;> simp [h]

/-- A valid block releases a prefix of the log, keeps the rest and adds its own entry. -/
theorem executeBlock_eq_ok {number : ℕ} {block : Block Producer} {parent r : Runtime Producer}
    (hsorted : parent.productionLog.Sorted)
    (hpending : parent.productionLog.currentProducer = none)
    (h : executeBlock search number block (.new block.shouldReleaseData parent) parent = .ok r) :
    (ParticipationInherentDataProvider.new block.shouldReleaseData parent).blocksProduced ++
        r.productionLog.log = parent.productionLog.log ++ block.entry?.toList ∧
      r.productionLog.currentProducer = none := by
  obtain ⟨appended, happend, h⟩ := bind_eq_ok_iff.mp h
  obtain ⟨noted, hnote, h⟩ := bind_eq_ok_iff.mp h
  obtain rfl := Except.ok.inj h
  obtain ⟨hlog, hproducer⟩ := dispatchAppend_eq_ok happend
  obtain ⟨hsplit, hkept⟩ := dispatchNoteProcessing_eq_ok hsorted hlog hnote
  obtain ⟨hfinal, hnone⟩ := onFinalize_spec block.slot noted.productionLog
  refine ⟨?_, hnone⟩
  rw [hfinal, hkept, hproducer hpending, ← List.append_assoc, hsplit]
  rfl

/-! ## Runs -/

/-- The logged blocks have increasing slots up to the one of the chain, and they are the
reported ones followed by the log. -/
structure Accounted (trace : List (Event Producer)) (chain : Chain Producer) : Prop where
  split : logged trace = reported trace ++ chain.runtime.productionLog.log
  increasing : (logged trace).Pairwise fun a b => a.1 < b.1
  past : ∀ entry ∈ logged trace, ∃ slot ∈ chain.slot, entry.1 ≤ slot
  finalized : chain.runtime.productionLog.currentProducer = none

variable {trace : List (Event Producer)}

theorem Accounted.sorted {chain : Chain Producer} (h : Accounted trace chain) :
    chain.runtime.productionLog.Sorted := by
  have hincreasing := h.increasing
  rw [h.split, List.pairwise_append] at hincreasing
  exact hincreasing.2.1

theorem Accounted.step {chain next : Chain Producer} {event : Event Producer}
    (h : Accounted trace chain) (hstep : (system search).Step chain event next) :
    Accounted (trace ++ [event]) next := by
  cases hstep with
  | produce block hslot hexecute =>
      obtain ⟨hlog, hfinalized⟩ := executeBlock_eq_ok h.sorted h.finalized hexecute
      have hlater : ∀ entry ∈ logged trace, entry.1 < block.slot := by
        intro entry hentry
        obtain ⟨slot, hchain, hle⟩ := h.past entry hentry
        exact hle.trans_lt (hslot slot hchain)
      have hown : ∀ entry ∈ block.entry?.toList, entry.1 = block.slot := by
        intro entry hentry
        obtain ⟨_, -, rfl⟩ := Option.map_eq_some_iff.mp (Option.mem_toList.mp hentry)
        rfl
      refine ⟨?_, ?_, ?_, hfinalized⟩
      · rw [logged_append_singleton, reported_append_singleton, h.split, List.append_assoc,
          List.append_assoc, ← hlog]
      · rw [logged_append_singleton, List.pairwise_append]
        refine ⟨h.increasing, ?_, fun a ha b hb => ?_⟩
        · cases block.entry? <;> simp
        · rw [hown b hb]
          exact hlater a ha
      · intro entry hentry
        rw [logged_append_singleton, List.mem_append] at hentry
        rcases hentry with hold | hnew
        · exact ⟨block.slot, rfl, (hlater entry hold).le⟩
        · exact ⟨block.slot, rfl, (hown entry hnew).le⟩

theorem accounted_of_run {chain : Chain Producer} (run : (system search).Run trace chain) :
    Accounted trace chain := by
  refine run.invariant (P := Accounted) ?_ ?_
  · rintro chain rfl
    exact ⟨rfl, .nil, by simp [logged], rfl⟩
  · intro trace chain event next h hstep
    exact h.step hstep

/-- What it means that block production is counted once. -/
structure CountedOnce [DecidableEq Producer] (search : PartitionPoint (Slot × Producer))
    (trace : List (Event Producer)) (s : Storage Producer) : Prop where
  sorted : s.Sorted
  prefixes : ∀ slot, takePrefix search slot s = (peekPrefix slot s, dropPrefix search slot s) ∧
    peekPrefix slot s ++ (dropPrefix search slot s).log = s.log
  once : ∀ entry ∈ logged trace, (reported trace).count entry + s.log.count entry = 1
  only : ∀ entry, entry ∈ reported trace ∨ entry ∈ s.log → entry ∈ logged trace

/-- In every run, each logged block is reported in exactly one release or is still in the
log, whatever slots the releases go up to. -/
theorem blocks_counted_once [DecidableEq Producer] (search : PartitionPoint (Slot × Producer))
    (trace : List (Event Producer)) (chain : Chain Producer)
    (run : (system search).Run trace chain) :
    CountedOnce search trace chain.runtime.productionLog := by
  have h := accounted_of_run run
  have hnodup : (logged trace).Nodup := h.increasing.imp fun hlt heq => by simp [heq] at hlt
  refine ⟨h.sorted, fun slot => ⟨h.sorted.takePrefix_eq search slot, ?_⟩, fun entry hentry => ?_,
    fun entry hentry => ?_⟩
  · exact h.sorted.peekPrefix_append_dropPrefix search slot
  · rw [← List.count_append, ← h.split]
    exact List.count_eq_one_of_mem hnodup hentry
  · rw [h.split]
    exact List.mem_append.mpr hentry

/-- The block of slot 7 releases up to slot 9, beyond itself, and is reported by the next
release. -/
theorem blocks_counted_once_three_blocks :
    ∃ chain : Chain ℕ, ∃ trace, reported trace = [(5, 1), (7, 2)] ∧
      chain.runtime.productionLog.log = [(12, 3)] ∧
      CountedOnce (.binarySearch _) trace chain.runtime.productionLog := by
  have run := System.Run.step (System.Run.step (System.Run.step
    (.start (M := system (PartitionPoint.binarySearch (Slot × ℕ))) rfl)
    (.produce ⟨5, some 1, none⟩ (by simp) rfl))
    (.produce ⟨7, some 2, some 9⟩ (by simp) rfl))
    (.produce ⟨12, some 3, some 10⟩ (by simp) rfl)
  exact ⟨_, _, rfl, rfl, blocks_counted_once _ _ _ run⟩

end PartnerChains.ProductionLog
