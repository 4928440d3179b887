import PartnerChains.Model.AuthorChain
import PartnerChains.Verification.Committee.Rotation
import PartnerChains.Verification.Session.Providers

/-!
# Aura and the committee pallet agree on the authors

Aura's keys and the current committee change in the same rotation only. The index of the
author is taken from the low bits of the slot in one place, and from the whole slot in the
other.
-/

namespace PartnerChains.Authors

open Fallible

variable {Member AccountId AuraId GrandpaId Inputs σ ςA ςG : Type} {maxValidators : ℕ}
  [LinearOrder AccountId]
  {cfg : Config Member AccountId AuraId GrandpaId Inputs σ ςA ςG maxValidators}

/-! ## Rotations -/

omit [LinearOrder AccountId] in
theorem ourKeys_aura (validators : List (AccountId × SessionKeys AuraId GrandpaId)) :
    (Session.ourKeys (fun keys => some keys.aura) validators).map Prod.snd =
      validators.map fun validator => validator.2.aura := by
  simp [Session.ourKeys]

theorem sessionManager_newSession_of_next (newIndex : UInt32)
    {m : ManagerState Member maxValidators} {next : Committee.CommitteeInfo Member maxValidators}
    (h : m.management.nextCommittee = some next) :
    (sessionManager cfg.committee).newSession newIndex m =
      .ok (some (next.committee.toList.map (Committee.validatorOfMember cfg.committee)),
        ⟨{ m.management with currentCommittee := next, nextCommittee := none }, newIndex⟩) := by
  simp only [sessionManager, Committee.newSession_of_next cfg.committee newIndex
    (r := { management := m.management, currentIndex := newIndex,
            palletSessionCurrentIndex := m.palletSessionCurrentIndex,
            validatorsAndKeys := [] }) h]
  rfl

/-- A rotation moves the next committee into service and gives its keys to Aura. -/
theorem rotateSession_of_next
    {r r' : Runtime Member AccountId AuraId GrandpaId σ ςA ςG maxValidators}
    {next : Committee.CommitteeInfo Member maxValidators}
    (hnext : r.manager.management.nextCommittee = some next)
    (hmembers : next.committee.toList ≠ [])
    (h : Session.rotateSession (sessionConfig cfg) r = .ok r') :
    r'.manager.management =
        { r.manager.management with currentCommittee := next, nextCommittee := none } ∧
      cfg.aura.authorities r'.handler.1 = committeeKeys cfg r'.manager.management := by
  obtain ⟨⟨validators, manager⟩, hnew, h⟩ := bind_eq_ok_iff.mp h
  rw [show (sessionConfig cfg).manager = sessionManager cfg.committee from rfl] at hnew
  have hnew' : (sessionManager cfg.committee).newSession (r.storage.currentIndex + 1) r.manager =
      _ := sessionManager_newSession_of_next _ hnext
  obtain ⟨rfl, rfl⟩ := Prod.mk.inj (Except.ok.inj (hnew.symm.trans hnew'))
  obtain ⟨applied, happly, h⟩ := bind_eq_ok_iff.mp h
  obtain ⟨_, happly', -, hmanager, hhandler, hvalidators, -⟩ :=
    Session.applyNewSession_spec (sessionConfig cfg)
      (some (next.committee.toList.map (Committee.validatorOfMember cfg.committee))) _
  obtain rfl := Except.ok.inj (happly.symm.trans happly')
  obtain rfl := Except.ok.inj h
  have hmanagement : applied.manager.management =
      { r.manager.management with currentCommittee := next, nextCommittee := none } := by
    rw [hmanager]
  refine ⟨hmanagement, ?_⟩
  have hkeys : Session.ourKeys (fun keys : SessionKeys AuraId GrandpaId => some keys.aura)
      applied.storage.validatorsAndKeys ≠ [] := by
    rw [hvalidators]
    simpa [Session.ourKeys] using hmembers
  refine (cfg.aura.authorities_new _ _ _ hkeys).trans ?_
  change _ = committeeKeys cfg applied.manager.management
  rw [ourKeys_aura, hvalidators, hmanagement]
  simp [committeeKeys, Committee.validatorOfMember]

/-! ## Runs -/

/-- Aura has the keys of the current committee, and the next committee has members. -/
structure Aligned (cfg : Config Member AccountId AuraId GrandpaId Inputs σ ςA ςG maxValidators)
    (r : Runtime Member AccountId AuraId GrandpaId σ ςA ςG maxValidators) : Prop where
  authorities : cfg.aura.authorities r.handler.1 = committeeKeys cfg r.manager.management
  next : ∀ next, r.manager.management.nextCommittee = some next → next.committee.toList ≠ []

/-- The first block changes the epoch of the committee only. -/
theorem Aligned.onInitialize
    {r : Runtime Member AccountId AuraId GrandpaId σ ςA ςG maxValidators} (h : Aligned cfg r)
    (blockNr : ℕ) (epoch : ScEpochNumber) :
    Aligned cfg { r with manager := { r.manager with
      management := Committee.onInitialize blockNr epoch r.manager.management } } := by
  have hkeys : committeeKeys cfg (Committee.onInitialize blockNr epoch r.manager.management) =
      committeeKeys cfg r.manager.management := by
    unfold Committee.onInitialize
    split_ifs <;> rfl
  have hnext : (Committee.onInitialize blockNr epoch r.manager.management).nextCommittee =
      r.manager.management.nextCommittee := by
    unfold Committee.onInitialize
    split_ifs <;> rfl
  exact ⟨h.authorities.trans hkeys.symm, fun next hsome => h.next next (hnext ▸ hsome)⟩

theorem Aligned.initializeBlock
    {r r' : Runtime Member AccountId AuraId GrandpaId σ ςA ςG maxValidators}
    (h : Aligned cfg r) {blockNr : ℕ} {epoch : ScEpochNumber}
    (hinit : initializeBlock cfg blockNr epoch r = .ok r') : Aligned cfg r' := by
  have halign := h.onInitialize blockNr epoch
  simp only [Authors.initializeBlock, Session.onInitialize] at hinit
  split_ifs at hinit with hend
  · obtain ⟨-, next, hnext⟩ := Committee.shouldEndSession_iff.mp hend
    obtain ⟨hmanagement, hkeys⟩ := rotateSession_of_next hnext (halign.next next hnext) hinit
    refine ⟨hkeys, fun next hsome => ?_⟩
    rw [hmanagement] at hsome
    cases hsome
  · obtain rfl := Except.ok.inj hinit
    exact halign

theorem Aligned.dispatch
    {r : Runtime Member AccountId AuraId GrandpaId σ ςA ςG maxValidators} (h : Aligned cfg r)
    {origin : Origin} {call : Committee.Call Member maxValidators} (hcall : NotEmpty call)
    {management : Committee.Storage Member maxValidators}
    (hdispatch : Committee.dispatch cfg.committee origin call r.manager.management =
      .ok management) :
    Aligned cfg { r with manager := { r.manager with management } } := by
  obtain ⟨validators, hash, rfl, -, rfl⟩ | ⟨_, _, _, rfl, rfl⟩ :=
    Committee.dispatch_cases hdispatch
  · refine ⟨h.authorities, fun next hsome => ?_⟩
    obtain rfl := Option.some.inj hsome
    exact hcall
  · exact ⟨h.authorities, h.next⟩

theorem Aligned.build {genesis : Committee.GenesisConfig Member}
    {initialValidators : List (AccountId × SessionKeys AuraId GrandpaId)}
    {before r : Runtime Member AccountId AuraId GrandpaId σ ςA ςG maxValidators}
    (hbefore : before.manager.management = genesis.build maxValidators)
    (hbuild : Session.build (sessionConfig cfg) initialValidators before = .ok r) :
    Aligned cfg r := by
  obtain ⟨_, -, h⟩ := bind_eq_ok_iff.mp hbuild
  obtain ⟨⟨genesisValidators, manager⟩, hgenesis, h⟩ := bind_eq_ok_iff.mp h
  obtain ⟨rfl, rfl⟩ := Prod.mk.inj (Except.ok.inj hgenesis)
  obtain ⟨rotated, hrotate, h⟩ := bind_eq_ok_iff.mp h
  obtain rfl := Except.ok.inj h
  obtain ⟨_, hrotate', -, hmanager, -⟩ := Session.rotateValidators_spec (sessionConfig cfg)
    ((Committee.newSessionGenesis cfg.committee before.manager.management).getD
      initialValidators) before
  obtain rfl := Except.ok.inj (hrotate.symm.trans hrotate')
  constructor
  · refine (cfg.aura.authorities_genesis _ _).trans ?_
    change _ = committeeKeys cfg rotated.manager.management
    rw [ourKeys_aura, hmanager]
    simp [Committee.newSessionGenesis, committeeKeys, Committee.validatorOfMember]
  · intro next hsome
    change rotated.manager.management.nextCommittee = some next at hsome
    rw [hmanager, hbefore] at hsome
    cases hsome

theorem aligned_of_run {genesis : Committee.GenesisConfig Member}
    {trace : List (Event Member maxValidators)}
    {chain : Chain Member AccountId AuraId GrandpaId σ ςA ςG maxValidators}
    (run : (system cfg genesis).Run trace chain) : Aligned cfg chain.runtime := by
  refine run.invariant (P := fun _ chain => Aligned cfg chain.runtime) ?_ ?_
  · rintro chain ⟨-, -, initialValidators, before, hbefore, hbuild⟩
    exact Aligned.build hbefore hbuild
  · intro _ chain event next h hstep
    cases hstep with
    | initBlock epoch _ hinit => exact h.initializeBlock hinit
    | accept hcall hdispatch => exact h.dispatch hcall hdispatch
    | reject => exact h

/-! ## Authors -/

/-- Both sides take a seat of the same list, by the low bits of the slot or by the slot. -/
theorem getAuthor_key (cfg : Config Member AccountId AuraId GrandpaId Inputs σ ςA ςG maxValidators)
    (usizeBits : ℕ) (s : Committee.Storage Member maxValidators) (slot : UInt64) :
    (getAuthor usizeBits s slot).map (fun member => (cfg.committee.authorityKeys member).aura) =
      (committeeKeys cfg s)[slot.toNat % 2 ^ usizeBits % (committeeKeys cfg s).length]? := by
  unfold getAuthor Committee.getCurrentAuthorityRoundRobin committeeKeys
  rw [List.getElem?_map, List.length_map]
  cases s.currentCommittee.committee.toList <;> simp

theorem slotAuthor_eq (authorities : List AuraId) (slot : UInt64) :
    slotAuthor authorities slot = authorities[slot.toNat % authorities.length]? := by
  cases authorities <;> simp [slotAuthor]

/-- Slots that fit into an index keep all their bits. -/
theorem sameSeatKey_of_lt (s : Committee.Storage Member maxValidators) {usizeBits : ℕ}
    {slot : UInt64} (h : slot.toNat < 2 ^ usizeBits) : SameSeatKey cfg usizeBits s slot := by
  rw [SameSeatKey, Nat.mod_eq_of_lt h]

/-- In every state of every run and for every slot, Aura and the committee pallet agree on
the author exactly when the slot and its low bits lead to the same key. -/
theorem authorAgreement_iff_same_seat_key
    (cfg : Config Member AccountId AuraId GrandpaId Inputs σ ςA ςG maxValidators)
    (genesis : Committee.GenesisConfig Member) (trace : List (Event Member maxValidators))
    (chain : Chain Member AccountId AuraId GrandpaId σ ςA ςG maxValidators)
    (run : (system cfg genesis).Run trace chain) (usizeBits : ℕ) (slot : UInt64) :
    AuthorAgreement cfg usizeBits chain.runtime slot ↔
      SameSeatKey cfg usizeBits chain.runtime.manager.management slot := by
  have hauthorities := (aligned_of_run run).authorities
  constructor
  · rintro ⟨-, hauthor⟩
    rwa [getAuthor_key, hauthorities, slotAuthor_eq] at hauthor
  · intro hsame
    refine ⟨hauthorities, ?_⟩
    rw [getAuthor_key, hauthorities, slotAuthor_eq]
    exact hsame

/-! ### A committee of three -/

def storedKeys : Aura ℕ ℕ (List ℕ) where
  keyTypeId := auraKeyTypeId
  onGenesisSession validators _ := validators.map Prod.snd
  onNewSession changed validators _ keys :=
    if changed && !validators.isEmpty then validators.map Prod.snd else keys
  onBeforeSessionEnding keys := keys
  authorities keys := keys
  keyTypeId_eq := rfl
  authorities_genesis _ _ := rfl
  authorities_new validators _ _ h := by cases validators <;> simp_all

/-- Members are numbers, which are their keys as well. -/
def numberedConfig : Config ℕ ℕ ℕ Unit Unit (ℕ → ℕ) (List ℕ) Unit 3 where
  committee := ⟨fun _ _ => none, id, fun member => ⟨member, ()⟩, fun _ => Bytes.filled 32 0,
    fun _ => true⟩
  frameSystem := Session.countingSystem
  aura := storedKeys
  grandpa := ⟨grandpaKeyTypeId, fun _ _ => (), fun _ _ _ _ => (), fun _ => ()⟩
  polkadotJsCompat := false

def threeAuthorities : Committee.GenesisConfig ℕ :=
  ⟨[1, 2, 3], ⟨"", Bytes.filled 28 0, Bytes.filled 28 0⟩⟩

/-- The state that the genesis build leaves. -/
def threeSeats : Runtime ℕ ℕ ℕ Unit (ℕ → ℕ) (List ℕ) Unit 3 where
  storage := ⟨[], [(1, ⟨1, ()⟩), (2, ⟨2, ()⟩), (3, ⟨3, ()⟩)], 0, []⟩
  system _ := 0
  manager := ⟨threeAuthorities.build 3, 0⟩
  handler := ([1, 2, 3], ())

theorem threeSeats_init :
    (system numberedConfig threeAuthorities).Init ⟨0, 0, threeSeats⟩ := by
  refine ⟨rfl, rfl, [], ⟨{}, fun _ => 0, ⟨threeAuthorities.build 3, 0⟩, ([], ())⟩, rfl, ?_⟩
  rfl

/-- In the block after a rotation, slot 5 belongs to the last seat of the new committee on both
sides. -/
theorem authorAgreement_iff_same_seat_key_rotated :
    let call : Committee.Call ℕ 3 := .set ⟨[3, 4], by decide⟩ 8 (Bytes.filled 32 0)
    ∃ chain, (system numberedConfig threeAuthorities).Run
        [.initialized, .accepted call, .initialized] chain ∧
      getAuthor 32 chain.runtime.manager.management 5 = some 4 ∧
      AuthorAgreement numberedConfig 32 chain.runtime 5 := by
  intro call
  have run := System.Run.step (.start threeSeats_init) (.initBlock 7 (by decide) rfl)
  have run := run.step (.accept (show NotEmpty call from List.cons_ne_nil _ _)
    (show Committee.dispatch _ .none call _ = .ok _ from rfl))
  have run := run.step (.initBlock 8 (by decide) rfl)
  exact ⟨_, run, rfl, (authorAgreement_iff_same_seat_key _ _ _ _ run 32 5).mpr
    (sameSeatKey_of_lt _ (by decide))⟩

/-- With indices of 32 bits, slot `2 ^ 32` is taken for slot 0: the first member is named, and
Aura expects the second. -/
theorem slot_beyond_index_names_another_author :
    ∃ chain, (system numberedConfig threeAuthorities).Run [.initialized] chain ∧
      getAuthor 32 chain.runtime.manager.management (2 ^ 32) = some 1 ∧
      slotAuthor (numberedConfig.aura.authorities chain.runtime.handler.1) (2 ^ 32) = some 2 ∧
      ¬ AuthorAgreement numberedConfig 32 chain.runtime (2 ^ 32) := by
  have run := System.Run.step (.start threeSeats_init) (.initBlock 7 (by decide) rfl)
  refine ⟨_, run, by decide, by decide, fun h => ?_⟩
  exact absurd h.author (by decide)

end PartnerChains.Authors
