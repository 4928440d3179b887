import PartnerChains.Model.CommitteeArchive
import PartnerChains.Verification.BlockSearch.Soundness
import PartnerChains.Verification.Committee.Correctness

/-!
# The committee of an epoch is answered with its own epoch and does not change

Two committees with the same epoch are the same one, in service or stored. While no epoch is
skipped, the committee in service at a block is the one of the block's epoch, so it does not
matter which block of the epoch the search finds.
-/

namespace PartnerChains.Committee

open BlockSearch CommitteeQuery Fallible

variable {Member AccountId AuthorityKeys Inputs : Type} {maxValidators : ℕ}
  {cfg : Config Member AccountId AuthorityKeys Inputs maxValidators}

/-! ## The calls of a block -/

/-- Calls keep the committee in service, and they store a next one only where there was none. -/
structure Extends (s t : Storage Member maxValidators) : Prop where
  current : t.currentCommittee = s.currentCommittee
  next : t.nextCommittee = s.nextCommittee ∨
    s.nextCommittee = none ∧ ∃ next, t.nextCommittee = some next ∧
      next.epoch = s.currentCommittee.epoch + 1

theorem Extends.refl (s : Storage Member maxValidators) : Extends s s := ⟨rfl, .inl rfl⟩

theorem Extends.trans {s t u : Storage Member maxValidators} (hst : Extends s t)
    (htu : Extends t u) : Extends s u := by
  refine ⟨htu.current.trans hst.current, ?_⟩
  cases hst.next with
  | inl hsame => simpa only [hsame, hst.current] using htu.next
  | inr hstored =>
      obtain ⟨hnone, next, hnext, hepoch⟩ := hstored
      cases htu.next with
      | inl hsame => exact .inr ⟨hnone, next, hsame.trans hnext, hepoch⟩
      | inr hagain =>
          rw [hnext] at hagain
          cases hagain.1

theorem extends_of_dispatch {origin : Origin} {call : Call Member maxValidators}
    {s t : Storage Member maxValidators} (h : dispatch cfg origin call s = .ok t) :
    Extends s t := by
  cases dispatch_cases h with
  | inl hset =>
      obtain ⟨validators, hash, -, hnone, rfl⟩ := hset
      exact ⟨rfl, .inr ⟨hnone, _, rfl, rfl⟩⟩
  | inr hscripts =>
      obtain ⟨_, _, _, -, rfl⟩ := hscripts
      exact ⟨rfl, .inl rfl⟩

/-- Calls do not change the number and the epoch of their block. -/
theorem Calls.spec {started block : Chain Member AccountId AuthorityKeys maxValidators}
    (h : Calls cfg started block) :
    block.number = started.number ∧ block.currentEpochNumber = started.currentEpochNumber ∧
      Extends started.runtime.management block.runtime.management := by
  induction h with
  | refl => exact ⟨rfl, rfl, .refl _⟩
  | tail _ hstep ih =>
      obtain ⟨hnumber, hepoch, hextends⟩ := ih
      cases hstep with
      | inl haccepted =>
          obtain ⟨call, hcall⟩ := haccepted
          cases hcall with
          | accept _ hdispatch =>
              exact ⟨hnumber, hepoch, hextends.trans (extends_of_dispatch hdispatch)⟩
      | inr hrejected =>
          obtain ⟨call, error, hcall⟩ := hrejected
          cases hcall with
          | reject _ _ => exact ⟨hnumber, hepoch, hextends⟩

variable {epoch : ScEpochNumber}

theorem NewBlock.spec {parent block : Chain Member AccountId AuthorityKeys maxValidators}
    (h : NewBlock cfg parent epoch block) :
    block.number = parent.number + 1 ∧ block.currentEpochNumber = epoch ∧
      parent.currentEpochNumber ≤ epoch ∧
      Extends (rotated epoch (onInitialize (parent.number + 1) epoch parent.runtime.management))
        block.runtime.management := by
  obtain ⟨inService, started, hstep, rfl, hcalls⟩ := h
  obtain ⟨hnumber, hepoch, hextends⟩ := hcalls.spec
  cases hstep with
  | @initBlock epoch runtime hle hinit =>
      obtain ⟨runtime', hok, hruntime⟩ :=
        initializeBlock_spec cfg (parent.number + 1) epoch parent.runtime
      obtain rfl : runtime' = runtime := Except.ok.inj (hok.symm.trans hinit)
      rw [← hruntime]
      exact ⟨hnumber, hepoch, hle, hextends⟩

/-! ## Known committees -/

/-- The epoch after another one is later, unless it wraps around to 0. -/
theorem add_one_ne_of_le {epoch bound : ScEpochNumber} (hle : epoch ≤ bound)
    (hpositive : epoch ≠ 0) : bound + 1 ≠ epoch := by
  intro hsame
  have hle : epoch.toNat ≤ bound.toNat := hle
  have hpositive : epoch.toNat ≠ 0 := fun hzero => hpositive (UInt64.toNat_inj.mp hzero)
  have hnat := congrArg UInt64.toNat hsame
  rw [UInt64.toNat_add, UInt64.toNat_one] at hnat
  have hlt := bound.toNat_lt
  omega

/-- The committees seen so far: the one in service and the next one are among them, and at most
one of them has a given epoch. -/
structure Registered (known : Set (CommitteeInfo Member maxValidators))
    (s : Storage Member maxValidators) : Prop where
  current : s.currentCommittee ∈ known
  next : ∀ next, s.nextCommittee = some next →
    next ∈ known ∧ next.epoch = s.currentCommittee.epoch + 1
  past : ∀ info ∈ known, info.epoch ≤ s.currentCommittee.epoch ∨ s.nextCommittee = some info
  unique : ∀ a ∈ known, ∀ b ∈ known, a.epoch ≠ 0 → a.epoch = b.epoch → a = b

variable {known : Set (CommitteeInfo Member maxValidators)} {s t : Storage Member maxValidators}

theorem Registered.rotated (h : Registered known s) (epoch : ScEpochNumber) :
    Registered known (rotated epoch s) := by
  cases hnext : s.nextCommittee with
  | none => simpa only [rotated_of_none hnext] using h
  | some next =>
      by_cases hlt : s.currentCommittee.epoch < epoch
      · obtain ⟨hmem, hepoch⟩ := h.next next hnext
        rw [rotated_of_lt hnext hlt]
        refine ⟨hmem, by simp, ?_, h.unique⟩
        intro info hinfo
        left
        cases h.past info hinfo with
        | inl hle =>
            have hle : info.epoch.toNat ≤ s.currentCommittee.epoch.toNat := hle
            have hsucc := epoch_lt_add_one hlt
            show info.epoch.toNat ≤ next.epoch.toNat
            rw [hepoch]
            omega
        | inr hsame =>
            rw [← Option.some.inj (hnext.symm.trans hsame)]
            exact UInt64.le_refl _
      · simpa only [rotated_of_le (UInt64.not_lt.mp hlt)] using h

theorem Registered.of_same (h : Registered known s)
    (hcurrent : t.currentCommittee = s.currentCommittee)
    (hnext : t.nextCommittee = s.nextCommittee) : Registered known t := by
  refine ⟨?_, ?_, ?_, h.unique⟩
  · rw [hcurrent]
    exact h.current
  · rw [hcurrent, hnext]
    exact h.next
  · rw [hcurrent, hnext]
    exact h.past

/-- One more committee, of an epoch that none of the known ones has. -/
theorem unique_insert {next : CommitteeInfo Member maxValidators}
    (h : ∀ a ∈ known, ∀ b ∈ known, a.epoch ≠ 0 → a.epoch = b.epoch → a = b)
    (hnew : ∀ info ∈ known, info.epoch ≠ 0 → info.epoch ≠ next.epoch) :
    ∀ a ∈ insert next known, ∀ b ∈ insert next known, a.epoch ≠ 0 → a.epoch = b.epoch → a = b := by
  intro a ha b hb hpositive hsame
  cases ha with
  | inl ha =>
      cases hb with
      | inl hb => rw [ha, hb]
      | inr hb =>
          rw [ha] at hpositive hsame
          exact absurd hsame.symm (hnew b hb (hsame ▸ hpositive))
  | inr ha =>
      cases hb with
      | inl hb =>
          rw [hb] at hsame
          exact absurd hsame (hnew a ha hpositive)
      | inr hb => exact h a ha b hb hpositive hsame

/-- A committee that is stored has a later epoch than all known ones. -/
theorem Registered.store (h : Registered known s) (hnone : s.nextCommittee = none)
    (hcurrent : t.currentCommittee = s.currentCommittee)
    {next : CommitteeInfo Member maxValidators} (hnext : t.nextCommittee = some next)
    (hepoch : next.epoch = s.currentCommittee.epoch + 1) : Registered (insert next known) t := by
  have hpast : ∀ info ∈ known, info.epoch ≤ s.currentCommittee.epoch := by
    intro info hinfo
    refine (h.past info hinfo).resolve_right ?_
    simp [hnone]
  refine ⟨?_, ?_, ?_, unique_insert h.unique ?_⟩
  · rw [hcurrent]
    exact .inr h.current
  · intro stored hstored
    rw [hcurrent, ← Option.some.inj (hnext.symm.trans hstored)]
    exact ⟨.inl rfl, hepoch⟩
  · intro info hinfo
    rw [hcurrent, hnext]
    cases hinfo with
    | inl hsame => exact .inr (congrArg some hsame.symm)
    | inr hknown => exact .inl (hpast info hknown)
  · intro info hinfo hpositive hsame
    exact add_one_ne_of_le (hpast info hinfo) hpositive (hsame.trans hepoch).symm

theorem Registered.extends (h : Registered known s) (hextends : Extends s t) :
    Registered (known ∪ {info | t.nextCommittee = some info}) t := by
  cases hextends.next with
  | inl hsame =>
      have hknown : known ∪ {info | t.nextCommittee = some info} = known := by
        refine Set.union_eq_left.mpr fun info hinfo => ?_
        exact (h.next info (hsame.symm.trans hinfo)).1
      rw [hknown]
      exact h.of_same hextends.current hsame
  | inr hstored =>
      obtain ⟨hnone, next, hnext, hepoch⟩ := hstored
      have hknown : known ∪ {info | t.nextCommittee = some info} = insert next known := by
        ext info
        show info ∈ known ∨ t.nextCommittee = some info ↔ info = next ∨ info ∈ known
        rw [hnext, Option.some.injEq, eq_comm (a := next), or_comm]
      rw [hknown]
      exact h.store hnone hextends.current hnext hepoch

/-! ## Archives -/

variable {client later : Client (Chain Member AccountId AuthorityKeys maxValidators)}

/-- The blocks after the genesis block. -/
def produced (client : Client (Chain Member AccountId AuthorityKeys maxValidators)) :
    List (Chain Member AccountId AuthorityKeys maxValidators) :=
  client.blocks.drop 1

/-- The committees that are in service or stored at some block after the genesis block. -/
def knownCommittees (client : Client (Chain Member AccountId AuthorityKeys maxValidators)) :
    Set (CommitteeInfo Member maxValidators) :=
  {info | ∃ block ∈ produced client, block.runtime.management.currentCommittee = info ∨
    block.runtime.management.nextCommittee = some info}

/-- What holds while no epoch is skipped. -/
structure InStep (client : Client (Chain Member AccountId AuthorityKeys maxValidators)) : Prop where
  number : client.best.number = client.bestNumber
  genesis : client.genesis.currentEpochNumber = 0
  idle : client.bestNumber = 0 → client.best.runtime.management.nextCommittee = none
  registered : client.bestNumber ≠ 0 →
    Registered (knownCommittees client) client.best.runtime.management
  inEpoch : ∀ block ∈ produced client,
    block.runtime.management.currentCommittee.epoch = block.currentEpochNumber

theorem produced_append (block : Chain Member AccountId AuthorityKeys maxValidators) :
    produced ⟨client.blocks, block⟩ = produced client ++ [block] := by
  have hlength : 1 ≤ client.blocks.length := by simp [Client.blocks]
  exact List.drop_append_of_le_length hlength

theorem mem_knownCommittees_append {info : CommitteeInfo Member maxValidators}
    (block : Chain Member AccountId AuthorityKeys maxValidators) :
    info ∈ knownCommittees ⟨client.blocks, block⟩ ↔ info ∈ knownCommittees client ∨
      block.runtime.management.currentCommittee = info ∨
        block.runtime.management.nextCommittee = some info := by
  show (∃ other ∈ produced ⟨client.blocks, block⟩, _) ↔ (∃ other ∈ produced client, _) ∨ _
  simp [produced_append, or_and_right, exists_or]

theorem registered_of_none (h : s.nextCommittee = none) : Registered {s.currentCommittee} s where
  current := rfl
  next := by simp [h]
  past info hinfo := .inl (by
    rw [Set.mem_singleton_iff.mp hinfo]
    exact UInt64.le_refl _)
  unique a ha b hb _ _ := ha.trans hb.symm

variable {block : Chain Member AccountId AuthorityKeys maxValidators}

theorem Registered.append (h : Registered known s) (hextends : Extends s block.runtime.management)
    (hknown : ∀ info, info ∈ known ↔
      info ∈ knownCommittees client ∨ s.currentCommittee = info) :
    Registered (knownCommittees ⟨client.blocks, block⟩) block.runtime.management := by
  have hsame : knownCommittees ⟨client.blocks, block⟩ =
      known ∪ {info | block.runtime.management.nextCommittee = some info} := by
    ext info
    rw [mem_knownCommittees_append, hextends.current, ← or_assoc, ← hknown]
    rfl
  rw [hsame]
  exact h.extends hextends

/-- The storage when a block starts to dispatch its calls. -/
def started (client : Client (Chain Member AccountId AuthorityKeys maxValidators))
    (epoch : ScEpochNumber) : Storage Member maxValidators :=
  rotated epoch
    (onInitialize (client.best.number + 1) epoch client.best.runtime.management)

theorem InStep.started_first (h : InStep client) (hfirst : client.bestNumber = 0)
    (epoch : ScEpochNumber) :
    (started client epoch).currentCommittee.epoch = epoch ∧
      (started client epoch).nextCommittee = none := by
  have hzero : client.best.number = 0 := h.number.trans hfirst
  have hnone := h.idle hfirst
  unfold started
  rw [rotated_of_none (by simp [onInitialize, hzero, hnone])]
  simp [onInitialize, hzero, hnone]

theorem InStep.started_later (h : InStep client) (hlater : client.bestNumber ≠ 0)
    (epoch : ScEpochNumber) :
    started client epoch = rotated epoch client.best.runtime.management := by
  have hkeep : onInitialize (client.best.number + 1) epoch client.best.runtime.management =
      client.best.runtime.management := by
    refine if_neg ?_
    rw [h.number]
    omega
  rw [started, hkeep]

theorem best_mem_produced (hlater : client.bestNumber ≠ 0) : client.best ∈ produced client := by
  unfold produced Client.blocks
  rw [List.drop_append_of_le_length (Nat.one_le_iff_ne_zero.mpr hlater)]
  simp

/-- Without skipped epochs the committee of the block's epoch enters service. -/
theorem InStep.started_epoch (h : InStep client) (hskips : SkipsNoEpoch client epoch)
    (hle : client.best.currentEpochNumber ≤ epoch) :
    (started client epoch).currentCommittee.epoch = epoch := by
  by_cases hfirst : client.bestNumber = 0
  · exact (h.started_first hfirst epoch).1
  · rw [h.started_later hfirst]
    rw [← h.inEpoch client.best (best_mem_produced hfirst)] at hle
    cases hskips.resolve_left hfirst with
    | inl hsame =>
        rw [rotated_of_le (by rw [hsame]; exact UInt64.le_refl _)]
        exact hsame.symm
    | inr hnext =>
        obtain ⟨hsome, hepoch⟩ := hnext
        obtain ⟨next, hnext⟩ := Option.isSome_iff_exists.mp hsome
        have hlt : client.best.runtime.management.currentCommittee.epoch < epoch := by
          refine UInt64.lt_of_le_of_ne hle ?_
          intro hsame
          rw [← hsame] at hepoch
          simp at hepoch
        rw [rotated_of_lt hnext hlt, hepoch]
        exact ((h.registered hfirst).next next hnext).2

theorem InStep.started_registered (h : InStep client) (epoch : ScEpochNumber) :
    ∃ known, Registered known (started client epoch) ∧
      ∀ info, info ∈ known ↔ info ∈ knownCommittees client ∨
        (started client epoch).currentCommittee = info := by
  by_cases hfirst : client.bestNumber = 0
  · refine ⟨_, registered_of_none (h.started_first hfirst epoch).2, ?_⟩
    have hnil : client.ancestors = [] := List.length_eq_zero_iff.mp hfirst
    intro info
    simp [knownCommittees, produced, Client.blocks, hnil, eq_comm]
  · rw [h.started_later hfirst]
    have hregistered := (h.registered hfirst).rotated epoch
    refine ⟨_, hregistered, ?_⟩
    intro info
    constructor
    · exact .inl
    · intro hinfo
      cases hinfo with
      | inl hearlier => exact hearlier
      | inr hcurrent =>
          rw [← hcurrent]
          exact hregistered.current

theorem InStep.step (h : InStep client) (hskips : SkipsNoEpoch client epoch)
    (hblock : NewBlock cfg client.best epoch block) :
    InStep ⟨client.blocks, block⟩ := by
  obtain ⟨hnumber, hepoch, hle, hextends⟩ := hblock.spec
  obtain ⟨known, hregistered, hknown⟩ := h.started_registered epoch
  have hbest : (⟨client.blocks, block⟩ : Client _).bestNumber = client.bestNumber + 1 := by
    simp [Client.bestNumber, Client.blocks]
  have hgenesis : (⟨client.blocks, block⟩ : Client _).genesis = client.genesis := by
    simp [Client.genesis, Client.blocks]
  refine ⟨?_, ?_, ?_, ?_, ?_⟩
  · rw [hbest, ← h.number]
    exact hnumber
  · rw [hgenesis]
    exact h.genesis
  · intro hzero
    omega
  · intro _
    exact hregistered.append hextends hknown
  · intro other hother
    rw [produced_append] at hother
    cases List.mem_append.mp hother with
    | inl hearlier => exact h.inEpoch other hearlier
    | inr hlast =>
        rw [List.mem_singleton.mp hlast, hextends.current, hepoch]
        exact h.started_epoch hskips hle

theorem inStep_of_run {genesis : GenesisConfig Member} {trace : List ScEpochNumber}
    (run : ((archiveSystem cfg genesis).restrict SkipsNoEpoch).Run trace client) :
    InStep client := by
  refine run.invariant (P := fun _ client => InStep client) ?_ ?_
  · rintro _ rfl
    exact ⟨rfl, rfl, fun _ => rfl, fun h => absurd rfl h, by simp [produced, Client.blocks]⟩
  · rintro _ client epoch _ h ⟨hskips, block, hblock, rfl⟩
    exact h.step hskips hblock

theorem knownCommittees_subset {genesis : GenesisConfig Member}
    {Allowed : Client (Chain Member AccountId AuthorityKeys maxValidators) → ScEpochNumber → Prop}
    (h : ((archiveSystem cfg genesis).restrict Allowed).Reaches client later) :
    knownCommittees client ⊆ knownCommittees later := by
  induction h with
  | refl => exact subset_rfl
  | tail _ hstep ih =>
      obtain ⟨epoch, _, block, _, rfl⟩ := hstep
      intro info hinfo
      exact (mem_knownCommittees_append block).mpr (.inl (ih hinfo))

theorem InStep.unique (h : InStep client) {a b : CommitteeInfo Member maxValidators}
    (ha : a ∈ knownCommittees client) (hb : b ∈ knownCommittees client) (hpositive : a.epoch ≠ 0)
    (hsame : a.epoch = b.epoch) : a = b := by
  by_cases hfirst : client.bestNumber = 0
  · obtain ⟨block, hblock, -⟩ := ha
    have hnil : client.ancestors = [] := List.length_eq_zero_iff.mp hfirst
    simp [produced, Client.blocks, hnil] at hblock
  · exact (h.registered hfirst).unique a ha b hb hpositive hsame

/-! ## The query -/

theorem nextEpoch_eq {overflowChecks : Bool} {epoch next : ScEpochNumber}
    (h : nextEpoch overflowChecks epoch = .ok next) : next = epoch + 1 := by
  unfold nextEpoch at h
  obtain ⟨sum, hsum, h⟩ := bind_eq_ok_iff.mp h
  have hnext : next.toNat = sum % 2 ^ 64 := by
    rw [← Except.ok.inj h]
    exact UInt64.toNat_ofNat
  refine UInt64.toNat_inj.mp ?_
  rw [hnext, UInt64.toNat_add, UInt64.toNat_one]
  cases overflowChecks with
  | true =>
      simp only [Checked.addWith, Checked.add, Checked.narrow, if_true] at hsum
      split_ifs at hsum
      rw [← Except.ok.inj hsum]
  | false =>
      simp only [Checked.addWith, Bool.false_eq_true, if_false] at hsum
      rw [← Except.ok.inj hsum, Nat.mod_mod]

theorem mem_produced_of_epoch (h : InStep client) (hpositive : epoch ≠ 0)
    (hblock : block ∈ client.blocks) (hepoch : block.currentEpochNumber = epoch) :
    block ∈ produced client := by
  rw [Client.blocks_eq_cons] at hblock
  refine (List.mem_cons.mp hblock).resolve_left ?_
  rintro rfl
  exact hpositive (hepoch.symm.trans h.genesis)

/-- An answer about an epoch other than 0 is a known committee of that epoch. -/
theorem InStep.getEpochCommittee (h : InStep client) {overflowChecks : Bool} {fuel : ℕ}
    {response : GetCommitteeResponse AccountId} (hpositive : epoch ≠ 0)
    (hresponse : getEpochCommittee runtimeApi cfg.authorityId overflowChecks fuel client epoch =
      .ok response) :
    ∃ info ∈ knownCommittees client, info.epoch = epoch ∧
      response = .new cfg.authorityId info.asPair := by
  unfold CommitteeQuery.getEpochCommittee at hresponse
  rw [if_neg hpositive] at hresponse
  cases hsecond : client.hash 1 with
  | none => simp [hsecond] at hresponse
  | some secondBlock =>
      have hlater : client.bestNumber ≠ 0 := by
        have hlt := (List.getElem?_eq_some_iff.mp hsecond).1
        simp only [Client.blocks, List.length_append, List.length_singleton] at hlt
        unfold Client.bestNumber
        omega
      simp only [hsecond, Client.getEpochOfBlock, Client.hash_bestNumber, mapError_ok, ok_bind]
        at hresponse
      split_ifs at hresponse with hearly
      obtain ⟨next, hnext, hresponse⟩ := bind_eq_ok_iff.mp hresponse
      have hnext := nextEpoch_eq (mapError_eq_ok_iff.mp hnext)
      split_ifs at hresponse with hunknown hsame
      · -- the committee stored at the best block
        cases hstored : client.best.runtime.management.nextCommittee with
        | none => simp [getNextCommitteeVersioned, runtimeApi, hstored] at hresponse
        | some info =>
            simp only [getNextCommitteeVersioned, runtimeApi, hstored, Option.map_some,
              Except.ok.injEq] at hresponse
            refine ⟨info, ⟨client.best, best_mem_produced hlater, .inr hstored⟩, ?_,
              hresponse.symm⟩
            rw [((h.registered hlater).next info hstored).2,
              h.inEpoch client.best (best_mem_produced hlater), hsame, hnext]
            rfl
      · -- the committee in service at a block of the epoch
        obtain ⟨block, hfind, hresponse⟩ := bind_eq_ok_iff.mp hresponse
        obtain ⟨hblock, hepoch⟩ := Client.findBlock_anyBlockInEpoch (mapError_eq_ok_iff.mp hfind)
        have hproduced := mem_produced_of_epoch h hpositive hblock hepoch
        exact ⟨_, ⟨block, hproduced, .inl rfl⟩, (h.inEpoch block hproduced).trans hepoch,
          (Except.ok.inj hresponse).symm⟩

/-- While no epoch is skipped, a successful answer is labelled with the epoch that was asked
for, and it is repeated after every extension of the chain. -/
theorem epoch_committee_stable
    (cfg : Config Member AccountId AuthorityKeys Inputs maxValidators)
    (genesis : GenesisConfig Member) (overflowChecks : Bool) (trace : List ScEpochNumber)
    (client : Client (Chain Member AccountId AuthorityKeys maxValidators))
    (run : ((archiveSystem cfg genesis).restrict SkipsNoEpoch).Run trace client)
    (epoch : ScEpochNumber) (hpositive : 0 < epoch) (fuel : ℕ)
    (response : GetCommitteeResponse AccountId)
    (hresponse : getEpochCommittee runtimeApi cfg.authorityId overflowChecks fuel client epoch =
      .ok response) :
    response.sidechainEpoch = epoch ∧
      ∀ later, ((archiveSystem cfg genesis).restrict SkipsNoEpoch).Reaches client later →
        ∀ fuel' response', getEpochCommittee runtimeApi cfg.authorityId overflowChecks fuel' later
          epoch = .ok response' → response'.committee = response.committee := by
  have hne : epoch ≠ 0 := UInt64.pos_iff_ne_zero.mp hpositive
  have h := inStep_of_run run
  obtain ⟨info, hinfo, hepoch, rfl⟩ := h.getEpochCommittee hne hresponse
  refine ⟨hepoch, ?_⟩
  intro later hreaches fuel' response' hresponse'
  have hlater : InStep later := by
    refine hreaches.invariant ?_ h
    rintro client epoch _ h ⟨hskips, block, hblock, rfl⟩
    exact h.step hskips hblock
  obtain ⟨info', hinfo', hepoch', rfl⟩ := hlater.getEpochCommittee hne hresponse'
  have hsame : info' = info :=
    hlater.unique hinfo' (knownCommittees_subset hreaches hinfo) (hepoch'.trans_ne hne)
      (hepoch'.trans hepoch.symm)
  rw [hsame]

/-! ### Chains with one authority -/

def sampleConfig : Config ℕ ℕ ℕ ℕ 4 :=
  ⟨fun _ _ => none, id, id, fun _ => .filled 32 0, fun _ => true⟩

def sampleGenesis : GenesisConfig ℕ := ⟨[1], ⟨"", .filled 28 0, .filled 28 0⟩⟩

/-- A block whose only call stores a committee for the epoch after the one in service. -/
def sampleBlock (parent : Chain ℕ ℕ ℕ 4) (epoch : ScEpochNumber) (member : ℕ) : Chain ℕ ℕ ℕ 4 :=
  match initializeBlock sampleConfig (parent.number + 1) epoch parent.runtime with
  | .error _ => parent
  | .ok runtime =>
      let current := runtime.management.currentCommittee
      match set .none ⟨[member], by simp⟩ (current.epoch + 1) runtime.management with
      | .error _ => ⟨parent.number + 1, epoch, runtime⟩
      | .ok management => ⟨parent.number + 1, epoch, { runtime with management }⟩

theorem newBlock_sampleBlock {parent : Chain ℕ ℕ ℕ 4} (hle : parent.currentEpochNumber ≤ epoch)
    (member : ℕ) :
    NewBlock sampleConfig parent epoch (sampleBlock parent epoch member) := by
  obtain ⟨runtime, hinit, -⟩ :=
    initializeBlock_spec sampleConfig (parent.number + 1) epoch parent.runtime
  refine ⟨_, _, .initBlock hle hinit, rfl, ?_⟩
  unfold sampleBlock
  simp only [hinit]
  split
  · exact .refl
  · rename_i management hset
    have hdispatch : dispatch sampleConfig .none (.set ⟨[member], by simp⟩
        (runtime.management.currentCommittee.epoch + 1) (.filled 32 0)) runtime.management =
          .ok management := hset
    exact .single (.inl ⟨_, .accept (Nat.succ_pos _) hdispatch⟩)

def sampleStart : Client (Chain ℕ ℕ ℕ 4) := ⟨[], 0, 0, genesisRuntime sampleConfig sampleGenesis⟩

def sampleNext (client : Client (Chain ℕ ℕ ℕ 4)) (epoch : ScEpochNumber) (member : ℕ) :
    Client (Chain ℕ ℕ ℕ 4) :=
  ⟨client.blocks, sampleBlock client.best epoch member⟩

def sampleQuery (client : Client (Chain ℕ ℕ ℕ 4)) (epoch : ScEpochNumber) :
    Except QueryError (GetCommitteeResponse ℕ) :=
  getEpochCommittee runtimeApi sampleConfig.authorityId true 8 client epoch

theorem sampleNext_step {client : Client (Chain ℕ ℕ ℕ 4)}
    (hle : client.best.currentEpochNumber ≤ epoch) (member : ℕ) :
    (archiveSystem sampleConfig sampleGenesis).Step client epoch (sampleNext client epoch member) :=
  ⟨_, newBlock_sampleBlock hle member, rfl⟩

/-- The committee of epoch 8 is asked for before and after its first block. -/
theorem epoch_committee_stable_next_epoch :
    let before := sampleNext sampleStart 7 2
    let later := sampleNext before 8 3
    ∃ trace, ((archiveSystem sampleConfig sampleGenesis).restrict SkipsNoEpoch).Run trace before ∧
      ((archiveSystem sampleConfig sampleGenesis).restrict SkipsNoEpoch).Reaches before later ∧
      sampleQuery before 8 = .ok ⟨8, [2]⟩ ∧
      ∀ response, sampleQuery later 8 = .ok response → response.committee = [2] := by
  intro before later
  have hrun : ((archiveSystem sampleConfig sampleGenesis).restrict SkipsNoEpoch).Run [7] before :=
    .step (.start rfl) ⟨.inl rfl, sampleNext_step (by decide) 2⟩
  have hreaches : ((archiveSystem sampleConfig sampleGenesis).restrict SkipsNoEpoch).Reaches
      before later :=
    .single ⟨8, .inr (.inr ⟨rfl, rfl⟩), sampleNext_step (by decide) 3⟩
  have hquery : sampleQuery before 8 = .ok ⟨8, [2]⟩ := by decide +kernel
  exact ⟨[7], hrun, hreaches, hquery,
    (epoch_committee_stable sampleConfig sampleGenesis true [7] before hrun 8 (by decide) 8 _
      hquery).2 later hreaches 8⟩

/-- Epoch 8 is skipped. The first block of epoch 9 has the committee of epoch 8 in service, and
later the search finds a block with the committee of epoch 9. -/
theorem skipped_epoch_is_mislabelled :
    let client := sampleNext (sampleNext sampleStart 7 2) 9 3
    let later := sampleNext (sampleNext client 9 4) 9 5
    (archiveSystem sampleConfig sampleGenesis).Run [7, 9] client ∧
      (archiveSystem sampleConfig sampleGenesis).Reaches client later ∧
      sampleQuery client 9 = .ok ⟨8, [2]⟩ ∧ sampleQuery later 9 = .ok ⟨9, [3]⟩ := by
  intro client later
  refine ⟨?_, ?_, by decide +kernel, by decide +kernel⟩
  · have hfirst : (archiveSystem sampleConfig sampleGenesis).Run [7] (sampleNext sampleStart 7 2) :=
      .step (.start rfl) (sampleNext_step (by decide +kernel) 2)
    exact hfirst.step (sampleNext_step (by decide +kernel) 3)
  · have hthird : (archiveSystem sampleConfig sampleGenesis).Reaches client
        (sampleNext client 9 4) := .single ⟨9, sampleNext_step (by decide +kernel) 4⟩
    exact hthird.tail ⟨9, sampleNext_step (by decide +kernel) 5⟩

end PartnerChains.Committee
