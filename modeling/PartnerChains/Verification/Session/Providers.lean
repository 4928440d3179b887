import PartnerChains.Model.SessionChain

/-!
# Provider references of validators

The list of validators is stored before it is compared with the stored one, so that a
rotation finds no difference and changes no reference.
-/

namespace PartnerChains.Session

open Fallible

variable {ValidatorId Keys AccountId σ μ ς : Type} [LinearOrder AccountId]
  {cfg : Config ValidatorId Keys AccountId σ μ ς}

/-- Nothing is to be changed between a set of accounts and itself. -/
theorem changeAccountProviders_self (ids : List AccountId) (s : σ) :
    changeAccountProviders cfg ids ids s = .ok s := by
  have hnone : (btreeSet ids).filter (fun account => account ∉ btreeSet ids) = [] := by
    rw [List.filter_eq_nil_iff]
    intro account haccount
    simpa using haccount
  simp only [changeAccountProviders, hnone]
  rfl

theorem rotateValidators_spec (cfg : Config ValidatorId Keys AccountId σ μ ς)
    (validators : List (ValidatorId × Keys)) (r : Runtime ValidatorId Keys σ μ ς) :
    ∃ r', rotateValidators cfg validators r = .ok r' ∧ r'.system = r.system ∧
      r'.manager = r.manager ∧ r'.handler = r.handler ∧
      r'.storage.validatorsAndKeys = validators ∧
      r'.storage.currentIndex = r.storage.currentIndex := by
  cases hcompat : cfg.polkadotJsCompat <;>
    simp [rotateValidators, hcompat, changeAccountProviders_self]

theorem applyNewSession_spec (cfg : Config ValidatorId Keys AccountId σ μ ς)
    (newValidators : Option (List (ValidatorId × Keys))) (r : Runtime ValidatorId Keys σ μ ς) :
    ∃ r', applyNewSession cfg newValidators r = .ok r' ∧ r'.system = r.system ∧
      r'.manager = r.manager ∧ r'.handler = r.handler ∧
      r'.storage.validatorsAndKeys = newValidators.getD r.storage.validatorsAndKeys ∧
      r'.storage.currentIndex = r.storage.currentIndex := by
  cases newValidators with
  | none => exact ⟨r, rfl, rfl, rfl, rfl, rfl, rfl⟩
  | some validators => exact rotateValidators_spec cfg validators r

theorem rotateSession_system {r r' : Runtime ValidatorId Keys σ μ ς}
    (h : rotateSession cfg r = .ok r') : r'.system = r.system := by
  obtain ⟨⟨newValidators, manager⟩, -, h⟩ := bind_eq_ok_iff.mp h
  obtain ⟨applied, happly, h⟩ := bind_eq_ok_iff.mp h
  obtain rfl := Except.ok.inj h
  obtain ⟨_, happly', hsystem, -⟩ := applyNewSession_spec cfg newValidators _
  obtain rfl := Except.ok.inj (happly.symm.trans happly')
  exact hsystem

theorem build_system {initialValidators : List (ValidatorId × Keys)}
    {r r' : Runtime ValidatorId Keys σ μ ς} (h : build cfg initialValidators r = .ok r') :
    r'.system = r.system := by
  obtain ⟨_, -, h⟩ := bind_eq_ok_iff.mp h
  obtain ⟨⟨genesisValidators, manager⟩, -, h⟩ := bind_eq_ok_iff.mp h
  obtain ⟨rotated, hrotate, h⟩ := bind_eq_ok_iff.mp h
  obtain rfl := Except.ok.inj h
  obtain ⟨_, hrotate', hsystem, -⟩ := rotateValidators_spec cfg
    (genesisValidators.getD initialValidators) { r with manager }
  obtain rfl := Except.ok.inj (hrotate.symm.trans hrotate')
  exact hsystem

/-! ## Runs -/

/-- All references come from elsewhere. -/
def OnlyElsewhere (cfg : Config ValidatorId Keys AccountId σ μ ς)
    (s : Tracked ValidatorId Keys AccountId σ μ ς) : Prop :=
  cfg.frameSystem.providers s.runtime.system = s.elsewhere

theorem OnlyElsewhere.step {s t : Tracked ValidatorId Keys AccountId σ μ ς}
    {event : Event AccountId} (h : OnlyElsewhere cfg s)
    (hstep : (system cfg).Step s event t) : OnlyElsewhere cfg t := by
  cases hstep with
  | rotate hrotate =>
      rw [OnlyElsewhere, rotateSession_system hrotate]
      exact h
  | plan manager handler => exact h
  | provide account =>
      funext other
      rw [cfg.frameSystem.providers_inc, h]
      change _ = Function.update s.elsewhere account _ other
      rw [Function.update_apply]
      split_ifs with heq
      · rw [heq]
      · rfl
  | @release account _ _ hdec =>
      funext other
      rw [cfg.frameSystem.providers_dec _ _ _ hdec, h]
      change _ = Function.update s.elsewhere account _ other
      rw [Function.update_apply]
      split_ifs with heq
      · rw [heq]
      · rfl

theorem onlyElsewhere_of_run {trace : List (Event AccountId)}
    {s : Tracked ValidatorId Keys AccountId σ μ ς} (run : (system cfg).Run trace s) :
    OnlyElsewhere cfg s := by
  refine run.invariant (P := fun _ s => OnlyElsewhere cfg s) ?_ ?_
  · rintro s ⟨initialValidators, before, hbuild, helsewhere⟩
    rw [OnlyElsewhere, build_system hbuild, helsewhere]
  · intro _ s event t h hstep
    exact h.step hstep

/-- In every state of every run, the references are as they should be exactly when there is
no current validator. -/
theorem providerLaw_iff_no_validators (cfg : Config ValidatorId Keys AccountId σ μ ς)
    (trace : List (Event AccountId)) (s : Tracked ValidatorId Keys AccountId σ μ ς)
    (run : (system cfg).Run trace s) :
    ProviderLaw cfg s ∧ ReleasesSucceed cfg s ↔ s.runtime.storage.validatorsAndKeys = [] := by
  have honly := onlyElsewhere_of_run run
  constructor
  · rintro ⟨hlaw, -⟩
    cases hvalidators : s.runtime.storage.validatorsAndKeys with
    | nil => rfl
    | cons validator rest =>
        have hmem : cfg.accountOf validator.1 ∈
            accIds cfg s.runtime.storage.validatorsAndKeys := by
          simp [hvalidators, accIds]
        have hcount := hlaw.validator _ hmem
        rw [honly] at hcount
        exact absurd hcount (Nat.succ_ne_self _).symm
  · intro hnone
    refine ⟨⟨fun account hmem => ?_, fun account _ => ?_⟩, fun validators => ?_⟩
    · rw [hnone] at hmem
      cases hmem
    · rw [honly]
    · obtain ⟨r, hrotate, -⟩ := rotateValidators_spec cfg validators s.runtime
      exact ⟨r, hrotate⟩

/-! ### A validator without a reference -/

def countingSystem : FrameSystem ℕ (ℕ → ℕ) where
  providers s := s
  incProviders account s := Function.update s account (s account + 1)
  decProviders account s :=
    if s account = 0 then .error () else .ok (Function.update s account (s account - 1))
  providers_inc account s other := by
    rw [Function.update_apply]
    split_ifs with heq
    · rw [heq]
    · rfl
  providers_dec account s s' h other := by
    split_ifs at h
    obtain rfl := Except.ok.inj h
    rw [Function.update_apply]
    split_ifs with heq
    · rw [heq]
    · rfl

/-- A manager that has the lists of the coming sessions. -/
def queuedManager : SessionManager ℕ Unit (List (List (ℕ × Unit))) where
  newSession _ queue := .ok (queue.head?, queue.tail)
  newSessionGenesis _ queue := .ok (queue.head?, queue.tail)
  endSession _ queue := queue
  startSession _ queue := queue

def queuedConfig : Config ℕ Unit ℕ (ℕ → ℕ) (List (List (ℕ × Unit))) Unit where
  polkadotJsCompat := true
  keyIds := []
  accountOf := id
  frameSystem := countingSystem
  manager := queuedManager
  handler := ⟨[], fun _ _ => (), fun _ _ _ _ => (), fun _ => ()⟩

/-- Without validators at genesis and in the next session, the law holds. -/
theorem providerLaw_iff_no_validators_empty_lists :
    ∃ s, (system queuedConfig).Run [.rotated] s ∧
      ProviderLaw queuedConfig s ∧ ReleasesSucceed queuedConfig s := by
  have hstart : (system queuedConfig).Init ⟨⟨{}, fun _ => 0, [[]], ()⟩, fun _ => 0⟩ :=
    ⟨[], ⟨{}, fun _ => 0, [[], []], ()⟩, rfl, rfl⟩
  have run := System.Run.step (.start hstart) (.rotate rfl)
  exact ⟨_, run, (providerLaw_iff_no_validators queuedConfig _ _ run).mpr rfl⟩

/-- Validator 1 is rotated to validator 2, and neither rotation gives the new validator a
reference. -/
theorem rotated_validator_has_no_provider :
    ∃ s, (system queuedConfig).Run [.rotated] s ∧
      s.runtime.storage.validatorsAndKeys = [(2, ())] ∧
      queuedConfig.frameSystem.providers s.runtime.system 2 = 0 ∧ s.elsewhere 2 = 0 ∧
      ¬ ProviderLaw queuedConfig s := by
  have hstart : (system queuedConfig).Init
      ⟨⟨⟨[1], [(1, ())], 0, []⟩, fun _ => 0, [[(2, ())]], ()⟩, fun _ => 0⟩ :=
    ⟨[], ⟨{}, fun _ => 0, [[(1, ())], [(2, ())]], ()⟩, rfl, rfl⟩
  have run := System.Run.step (.start hstart) (.rotate rfl)
  refine ⟨_, run, rfl, rfl, rfl, fun h => ?_⟩
  exact absurd (h.validator 2 (by decide)) (by decide)

end PartnerChains.Session
