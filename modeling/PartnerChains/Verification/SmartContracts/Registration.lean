import PartnerChains.Algorithm.Registration
import PartnerChains.Verification.RegisteredCandidates.RoundTrip
import PartnerChains.Verification.SmartContracts.Building

/-!
# Registering and deregistering a candidate

Both transactions spend all own registrations. Their costs are looked up as the cost of the only
script input, which panics when there are several.
-/

namespace PartnerChains.SmartContracts

open Fallible AuthoritySelection RegisteredCandidates

/-! ## Own registrations -/

section Own

variable (fromBytes : ByteString → Option PlutusData) (ownPkh : MainchainKeyHash)
  (spoPubKey : StakePoolPublicKey)

theorem exists_getCandidateRegistration (utxo : OgmiosUtxo) :
    ∃ result, getCandidateRegistration fromBytes utxo = .ok result := by
  unfold getCandidateRegistration
  cases utxo.datum with
  | none => exact ⟨_, rfl⟩
  | some bytes =>
      cases hbytes : fromBytes bytes with
      | none => exact ⟨.error .notPlutusData, by simp [hbytes]⟩
      | some data =>
          obtain ⟨result, hresult⟩ := exists_decode data
          cases result with
          | error e => exact ⟨.error (.notARegistration e), by simp [hbytes, hresult]⟩
          | ok datum => exact ⟨.ok (.ofDatum datum), by simp [hbytes, hresult]⟩

theorem ownRegistration_cases (utxo : OgmiosUtxo) :
    ∃ result, ownRegistration fromBytes ownPkh spoPubKey utxo = .ok result ∧
      ∀ e ∈ result, e.1 = utxo := by
  obtain ⟨result, hresult⟩ := exists_getCandidateRegistration fromBytes utxo
  unfold ownRegistration
  cases result with
  | error e => exact ⟨none, by simp [hresult], by simp⟩
  | ok registration =>
      refine ⟨_, by simp [hresult]; rfl, ?_⟩
      intro e he
      rw [Option.mem_def, Option.ite_none_right_eq_some] at he
      rw [← Option.some.inj he.2]

theorem exists_getOwnRegistrations (validatorUtxos : List OgmiosUtxo) :
    ∃ own, getOwnRegistrations fromBytes ownPkh spoPubKey validatorUtxos = .ok own := by
  refine ⟨_, filterMapM_eq_ok_iff.mpr ⟨fun utxo _ => ?_, rfl⟩⟩
  obtain ⟨result, hresult, -⟩ := ownRegistration_cases fromBytes ownPkh spoPubKey utxo
  exact ⟨result, hresult⟩

variable {fromBytes ownPkh spoPubKey}

theorem getOwnRegistrations_sublist {validatorUtxos : List OgmiosUtxo}
    {own : List (OgmiosUtxo × CandidateRegistration)}
    (h : getOwnRegistrations fromBytes ownPkh spoPubKey validatorUtxos = .ok own) :
    (own.map (·.1)).Sublist validatorUtxos := by
  refine filterMapM_sublist h fun utxo e he => ?_
  obtain ⟨result, hresult, hutxo⟩ := ownRegistration_cases fromBytes ownPkh spoPubKey utxo
  rw [hresult] at he
  exact hutxo e (Except.ok.inj he)

end Own

/-! ## Costs of own registrations -/

/-- The names of its tokens have at most 32 bytes, so that the value is converted. -/
def OgmiosUtxo.Convertible (utxo : OgmiosUtxo) : Prop := ∃ value, utxo.value.toCsl = .ok value

theorem scriptInput_of_convertible {utxo : OgmiosUtxo} (h : utxo.Convertible) :
    scriptInput utxo = .ok utxo := by
  obtain ⟨value, hvalue⟩ := h
  simp [scriptInput, hvalue]

def severalSpendsPanic : Panic :=
  ⟨"get_one_spend should only be called when exactly one spend is expected to be present"⟩

theorem Costs.getOneSpend_of_length_eq_one (mints : AList fun _ : ScriptHash => ExUnits)
    {spends : AList fun _ : ℕ => ExUnits} (h : spends.keys.length = 1) :
    ∃ units, getOneSpend (.costs mints spends) = .ok units := by
  rw [AList.keys, List.keys, List.length_map, List.length_eq_one_iff] at h
  obtain ⟨entry, hentry⟩ := h
  exact ⟨entry.2, by simp [getOneSpend, hentry]⟩

theorem Costs.getOneSpend_of_two_le_length (mints : AList fun _ : ScriptHash => ExUnits)
    {spends : AList fun _ : ℕ => ExUnits} (h : 2 ≤ spends.keys.length) :
    getOneSpend (.costs mints spends) = .error severalSpendsPanic := by
  rw [AList.keys, List.keys, List.length_map] at h
  match hentries : spends.entries, h with
  | _ :: _ :: _, _ => simp [getOneSpend, hentries, severalSpendsPanic]

def ownInputs (validator : PlutusScript) (utxos : List OgmiosUtxo) (units : ExUnits) :
    List ScriptInput :=
  utxos.map fun utxo => ⟨utxo, validator.scriptHash, registerRedeemerData, units⟩

variable {costs : Costs} {units : ExUnits}

theorem ownRegistrationInputs_eq_ok {validator : PlutusScript} {utxos : List OgmiosUtxo}
    (hutxos : ∀ utxo ∈ utxos, utxo.Convertible)
    (hcosts : utxos ≠ [] → costs.getOneSpend = .ok units) :
    ownRegistrationInputs validator utxos costs = .ok (ownInputs validator utxos units) := by
  refine mapM_eq_ok_map fun utxo hutxo => ?_
  rw [hcosts (List.ne_nil_of_mem hutxo)]
  simp [addScriptUtxoInput, scriptInput_of_convertible (hutxos utxo hutxo)]

theorem ownRegistrationInputs_eq_error {validator : PlutusScript} {utxos : List OgmiosUtxo}
    {panic : Panic} (hutxos : utxos ≠ []) (hcosts : costs.getOneSpend = .error panic) :
    ownRegistrationInputs validator utxos costs = .error (.panic panic) := by
  obtain ⟨utxo, utxos, rfl⟩ := List.exists_cons_of_ne_nil hutxos
  simp [ownRegistrationInputs, hcosts, Except.mapError]

/-! ## Transactions that spend own registrations -/

section Spend

variable {lib : SerializationLib} {validator : PlutusScript} {ctx : TransactionContext}
  {client : Client} {first second : IterationOrder} {own : List OgmiosUtxo}
  {rest : TransactionBuilder}

/-- Both transactions have this form: own registrations are spent besides something else. -/
def spendOwnTx (lib : SerializationLib) (validator : PlutusScript) (own : List OgmiosUtxo)
    (rest : TransactionBuilder) (ctx : TransactionContext) (costs : Costs) :
    Except BuildError BalancedTransaction := do
  let inputs ← ownRegistrationInputs validator own costs
  balanceUpdateAndBuild lib { rest with scriptInputs := inputs } ctx

variable (validator rest)

theorem exists_spendOwnTx (hown : ∀ utxo ∈ own, utxo.Convertible)
    (hbalances : Balances (spendOwnTx lib validator own rest ctx costs))
    (hcosts : own ≠ [] → costs.getOneSpend = .ok units) :
    ∃ tx added change, spendOwnTx lib validator own rest ctx costs = .ok tx ∧
      BuiltFrom { rest with scriptInputs := ownInputs validator own units } ctx tx added
        change := by
  rw [spendOwnTx, ownRegistrationInputs_eq_ok hown hcosts, ok_bind] at hbalances ⊢
  obtain ⟨tx, htx⟩ := hbalances.exists_ok
  obtain ⟨added, change, hbuilt⟩ := exists_builtFrom htx
  exact ⟨tx, added, change, htx, hbuilt⟩

/-- An evaluation finds one spend for each own registration. -/
theorem exists_fromOgmios_own (hclient : client.Evaluates) (hnodup : (own.map (·.utxoId)).Nodup)
    {tx : BalancedTransaction} {added : List OgmiosUtxo} {change : List TransactionOutput}
    (hbuilt : BuiltFrom { rest with scriptInputs := ownInputs validator own units } ctx tx added
      change) (order : IterationOrder) :
    ∃ mints spends, Costs.fromOgmios client order tx = .ok (.costs mints spends) ∧
      spends.keys.length = own.length := by
  have hids : TransactionBuilder.scriptIds
      { rest with scriptInputs := ownInputs validator own units } = own.map (·.utxoId) := by
    simp [TransactionBuilder.scriptIds, ownInputs, Function.comp_def]
  have hindices : (tx.redeemers.map (·.index)).Nodup := by
    rw [hbuilt.tx_eq]
    exact TransactionBuilder.build_redeemers_nodup _ _ _ (by rwa [hids])
  obtain ⟨mints, spends, hcosts, hreports⟩ := Costs.exists_fromOgmios hclient order hindices
  refine ⟨mints, spends, hcosts, ?_⟩
  rw [hreports.keys.length_eq, hbuilt.tx_eq, TransactionBuilder.build_redeemers_index, hids]
  simp

/-- With at most one own registration, an evaluation gives the cost that the next transaction asks
for. -/
theorem exists_fromOgmios_one (hclient : client.Evaluates) (hlength : own.length ≤ 1)
    {tx : BalancedTransaction} {added : List OgmiosUtxo} {change : List TransactionOutput}
    (hbuilt : BuiltFrom { rest with scriptInputs := ownInputs validator own units } ctx tx added
      change) (order : IterationOrder) :
    ∃ costs units, Costs.fromOgmios client order tx = .ok costs ∧
      (own ≠ [] → costs.getOneSpend = .ok units) := by
  have hnodup : (own.map (·.utxoId)).Nodup := by
    match own, hlength with
    | [], _ => exact List.nodup_nil
    | [_], _ => exact List.nodup_singleton _
  obtain ⟨mints, spends, hcosts, hspends⟩ :=
    exists_fromOgmios_own validator rest hclient hnodup hbuilt order
  by_cases hempty : own = []
  · exact ⟨_, zeroExUnits, hcosts, fun hne => absurd hempty hne⟩
  · have hkeys : spends.keys.length = 1 := by
      have hpos := List.length_pos_of_ne_nil hempty
      omega
    obtain ⟨units, hunits⟩ := Costs.getOneSpend_of_length_eq_one mints hkeys
    exact ⟨_, units, hcosts, fun _ => hunits⟩

variable {validator rest} in
theorem exists_calculateCosts_own (hclient : client.Evaluates)
    (hbalances : Balances (Costs.calculateCosts (spendOwnTx lib validator own rest ctx) client
      first second)) (hown : ∀ utxo ∈ own, utxo.Convertible) (hlength : own.length ≤ 1) :
    ∃ tx units added change, Costs.calculateCosts (spendOwnTx lib validator own rest ctx) client
        first second = .ok tx ∧
      BuiltFrom { rest with scriptInputs := ownInputs validator own units } ctx tx added
        change := by
  have hzero : own ≠ [] → Costs.zeroCosts.getOneSpend = .ok zeroExUnits := fun _ => rfl
  obtain ⟨tx₀, _, _, htx₀, hbuilt₀⟩ := exists_spendOwnTx validator rest hown hbalances.of_bind hzero
  obtain ⟨costs₁, _, hcosts₁, hone₁⟩ :=
    exists_fromOgmios_one validator rest hclient hlength hbuilt₀ first
  have hsecond := hbalances
  rw [Costs.calculateCosts, htx₀, ok_bind, hcosts₁, ok_bind] at hsecond
  obtain ⟨tx₁, _, _, htx₁, hbuilt₁⟩ := exists_spendOwnTx validator rest hown hsecond.of_bind hone₁
  obtain ⟨costs₂, units, hcosts₂, hone₂⟩ :=
    exists_fromOgmios_one validator rest hclient hlength hbuilt₁ second
  have hevaluated : Costs.LastEvaluated (spendOwnTx lib validator own rest ctx) client first tx₁ :=
    ⟨tx₀, costs₁, htx₀, hcosts₁, htx₁⟩
  obtain ⟨tx, added, change, htx, hbuilt⟩ :=
    exists_spendOwnTx validator rest hown (hevaluated.balances hcosts₂ hbalances) hone₂
  exact ⟨tx, units, added, change, Costs.calculateCosts_eq_ok_iff.mpr
    ⟨tx₁, costs₂, hevaluated, hcosts₂, htx⟩, hbuilt⟩

variable {validator rest} in
/-- With several own registrations, the second transaction is not built. -/
theorem calculateCosts_own_panics (hclient : client.Evaluates)
    (hbalances : Balances (Costs.calculateCosts (spendOwnTx lib validator own rest ctx) client
      first second)) (hown : ∀ utxo ∈ own, utxo.Convertible)
    (hnodup : (own.map (·.utxoId)).Nodup) (hlength : 2 ≤ own.length) :
    Costs.calculateCosts (spendOwnTx lib validator own rest ctx) client first second =
      .error (.panic severalSpendsPanic) := by
  have hzero : own ≠ [] → Costs.zeroCosts.getOneSpend = .ok zeroExUnits := fun _ => rfl
  obtain ⟨tx₀, _, _, htx₀, hbuilt₀⟩ := exists_spendOwnTx validator rest hown hbalances.of_bind hzero
  obtain ⟨mints, spends, hcosts, hspends⟩ :=
    exists_fromOgmios_own validator rest hclient hnodup hbuilt₀ first
  have hpanic : spendOwnTx lib validator own rest ctx (.costs mints spends) =
      .error (.panic severalSpendsPanic) := by
    have hspend := Costs.getOneSpend_of_two_le_length mints (hlength.trans_eq hspends.symm)
    have hne : own ≠ [] := List.ne_nil_of_length_pos (by omega)
    rw [spendOwnTx, ownRegistrationInputs_eq_error hne hspend, error_bind]
  rw [Costs.calculateCosts, htx₀, ok_bind, hcosts, ok_bind, hpanic, error_bind]

end Spend

/-! ## Commands -/

/-- Outputs of one ledger, at the address of the validator and of the payment key. -/
structure Queried (ctx : TransactionContext) (validatorUtxos : List OgmiosUtxo) : Prop where
  unique : (validatorUtxos.map (·.utxoId)).Nodup
  apart : ∀ utxo ∈ validatorUtxos, ∀ payment ∈ ctx.paymentKeyUtxos, utxo.utxoId ≠ payment.utxoId
  convertible : ∀ utxo ∈ validatorUtxos ++ ctx.paymentKeyUtxos, utxo.Convertible

/-- Of the outputs at the validator, the transaction spends these and no others. -/
def SpendsExactly (tx : BalancedTransaction) (validatorUtxos own : List OgmiosUtxo) : Prop :=
  ∀ utxo ∈ validatorUtxos, utxo.utxoId ∈ tx.inputs ↔ utxo ∈ own

section Commands

variable {lib : SerializationLib} {validator : PlutusScript} {ctx : TransactionContext}
  {client : Client} {first second : IterationOrder} {validatorUtxos own : List OgmiosUtxo}

theorem Queried.spendsExactly (hutxos : Queried ctx validatorUtxos)
    (hown : own.Sublist validatorUtxos) {rest : TransactionBuilder}
    (hrest : rest.regularInputs ⊆ ctx.paymentKeyUtxos) {tx : BalancedTransaction}
    {added : List OgmiosUtxo} {change : List TransactionOutput}
    (hbuilt : BuiltFrom { rest with scriptInputs := ownInputs validator own units } ctx tx added
      change) : SpendsExactly tx validatorUtxos own := by
  intro utxo hutxo
  have hpayment {inputs : List OgmiosUtxo} (hsub : inputs ⊆ ctx.paymentKeyUtxos) :
      utxo.utxoId ∉ inputs.map (·.utxoId) := by
    intro hmem
    obtain ⟨payment, hpayment, heq⟩ := List.mem_map.mp hmem
    exact hutxos.apart utxo hutxo payment (hsub hpayment) heq.symm
  rw [hbuilt.tx_eq, TransactionBuilder.mem_build_inputs]
  simp only [hpayment hrest, hpayment hbuilt.added_subset, or_false]
  constructor
  · intro hmem
    obtain ⟨utxo', hutxo', heq⟩ : ∃ utxo' ∈ own, utxo'.utxoId = utxo.utxoId := by
      simpa [TransactionBuilder.scriptIds, ownInputs] using hmem
    obtain rfl := List.inj_on_of_nodup_map hutxos.unique (hown.subset hutxo') hutxo heq
    exact hutxo'
  · intro hmem
    simpa [TransactionBuilder.scriptIds, ownInputs] using ⟨utxo, hmem, rfl⟩

/-- Whichever transaction spends the own registrations, it is built exactly when there is at most
one of them. -/
theorem Queried.built_iff (hutxos : Queried ctx validatorUtxos)
    (hown : own.Sublist validatorUtxos) (hclient : client.Evaluates)
    {rest : TransactionBuilder} (hrest : rest.regularInputs ⊆ ctx.paymentKeyUtxos)
    {built : Except BuildError (Option BalancedTransaction)} (hbalances : Balances built)
    (hbuilt : built = (Costs.calculateCosts (spendOwnTx lib validator own rest ctx) client
      first second).map some) :
    ((∃ tx, built = .ok (some tx) ∧ SpendsExactly tx validatorUtxos own) ↔ own.length ≤ 1) ∧
      (2 ≤ own.length → built = .error (.panic severalSpendsPanic)) := by
  have hconvertible (utxo : OgmiosUtxo) (hutxo : utxo ∈ own) : utxo.Convertible :=
    hutxos.convertible utxo (List.mem_append_left _ (hown.subset hutxo))
  have hcosts : Balances (Costs.calculateCosts (spendOwnTx lib validator own rest ctx) client
      first second) := by
    intro cause herror
    exact hbalances cause (by rw [hbuilt, herror]; rfl)
  have hpanics (hlength : 2 ≤ own.length) : built = .error (.panic severalSpendsPanic) := by
    rw [hbuilt, calculateCosts_own_panics hclient hcosts hconvertible
      (hutxos.unique.sublist (hown.map _)) hlength]
    rfl
  refine ⟨⟨?_, fun hlength => ?_⟩, hpanics⟩
  · rintro ⟨tx, htx, -⟩
    by_contra hlength
    rw [hpanics (by omega)] at htx
    cases htx
  · obtain ⟨tx, units, added, change, htx, hfrom⟩ :=
      exists_calculateCosts_own hclient hcosts hconvertible hlength
    exact ⟨tx, by rw [hbuilt, htx]; rfl, hutxos.spendsExactly hown hrest hfrom⟩

variable {fromBytes : ByteString → Option PlutusData}

theorem buildRegister_eq {registration : CandidateRegistration} {registrationUtxo : OgmiosUtxo}
    {own : List (OgmiosUtxo × CandidateRegistration)}
    (hfound : ctx.paymentKeyUtxos.find?
      (fun u => u.utxoId = registration.registrationUtxo.val) = some registrationUtxo)
    (hconvertible : registrationUtxo.Convertible)
    (hown : getOwnRegistrations fromBytes registration.ownPkh
      registration.stakeOwnership.pubKey validatorUtxos = .ok own)
    (hmatch : ∀ e ∈ own, registration.matchesKeys e.2 = false) :
    buildRegister lib validator client first second fromBytes ctx registration validatorUtxos =
      (Costs.calculateCosts (spendOwnTx lib validator (own.map (·.1))
        { regularInputs := [registrationUtxo]
          outputs := [⟨validator.address,
            some (candidateRegistrationToPlutusData registration), ∅⟩] } ctx) client
        first second).map some := by
  have hnone : own.any (fun e => registration.matchesKeys e.2) = false := by simpa using hmatch
  have htx (costs : Costs) : registerTx lib validator registration registrationUtxo
      (own.map (·.1)) costs ctx = spendOwnTx lib validator (own.map (·.1))
        { regularInputs := [registrationUtxo]
          outputs := [⟨validator.address,
            some (candidateRegistrationToPlutusData registration), ∅⟩] } ctx costs := by
    simp [registerTx, spendOwnTx, scriptInput_of_convertible hconvertible]
  simp only [buildRegister, hfound, orElse, ok_bind, hown, mapError_ok, hnone, htx]
  cases Costs.calculateCosts _ client first second <;> rfl

theorem buildDeregister_eq {pubKey : StakePoolPublicKey}
    {own : List (OgmiosUtxo × CandidateRegistration)}
    (hown : getOwnRegistrations fromBytes ctx.paymentKeyHash pubKey validatorUtxos = .ok own)
    (hne : own ≠ []) :
    buildDeregister lib validator client first second fromBytes ctx pubKey validatorUtxos =
      (Costs.calculateCosts (spendOwnTx lib validator (own.map (·.1)) {} ctx) client
        first second).map some := by
  have hempty : own.isEmpty = false := by simpa using hne
  have htx (costs : Costs) : deregisterTx lib validator (own.map (·.1)) costs ctx =
      spendOwnTx lib validator (own.map (·.1)) {} ctx costs := rfl
  simp only [buildDeregister, hown, mapError_ok, ok_bind, hempty, htx]
  cases Costs.calculateCosts _ client first second <;> rfl

/-- The memory that an input needs depends on its position. -/
def clientWithCosts (memory : ℕ → UInt64) : Client where
  evaluateTransaction tx := .ok (tx.redeemers.map (fun redeemer =>
      ⟨"spend", redeemer.index, memory redeemer.index, 7⟩)
    ++ (List.range tx.mint.length).map fun index => ⟨"mint", index, 5, 7⟩)
  submitTransaction _ := .ok (.filled 32 9)
  awaitTxOutput _ := .ok ()

theorem clientWithCosts_evaluates (memory : ℕ → UInt64) : (clientWithCosts memory).Evaluates := by
  refine fun tx => ⟨_, rfl, ?_, ?_, ?_⟩
  · simp [Costs.spendEntries, List.filter_map, Function.comp_def]
  · intro er her hmint
    rcases List.mem_append.mp her with hmem | hmem
    · obtain ⟨redeemer, -, rfl⟩ := List.mem_map.mp hmem
      simp at hmint
    · obtain ⟨index, hindex, rfl⟩ := List.mem_map.mp hmem
      exact List.mem_range.mp hindex
  · intro index minting hindex _
    refine ⟨_, List.mem_append_right _ (List.mem_map.mpr ⟨index, ?_, rfl⟩), rfl, rfl⟩
    exact List.mem_range.mpr (List.getElem?_eq_some_iff.mp hindex).1

/-- All scripts have the same cost. -/
def sampleClient : Client := clientWithCosts fun _ => 5

theorem sampleClient_evaluates : sampleClient.Evaluates := clientWithCosts_evaluates _

def sampleOrder : IterationOrder := ⟨id, fun _ => .refl _⟩

def sampleValidator : PlutusScript := ⟨.filled 28 1, "validator"⟩

/-- The payment key owns the output that the registration names. -/
def sampleContext : TransactionContext where
  paymentKeyHash := candidateSample.ownPkh
  paymentKeyUtxos := [⟨candidateSample.registrationUtxo.val, "payment", ⟨10000000, ∅⟩, none⟩]
  maxCollateralInputs := 3
  changeAddress := "payment"

/-- An output at the validator with the sample registration. -/
def registeredUtxo (byte : UInt8) : OgmiosUtxo :=
  ⟨⟨.filled 32 byte, 0⟩, "validator", ⟨2000000, ∅⟩, some [1]⟩

def registeredFromBytes (_ : ByteString) : Option PlutusData :=
  some (candidateRegistrationToPlutusData candidateSample)

theorem sampleQueried (bytes : List UInt8) (hnodup : bytes.Nodup) (h5 : 5 ∉ bytes) :
    Queried sampleContext (bytes.map registeredUtxo) where
  unique := by
    rw [List.map_map]
    refine hnodup.map fun a b hab => ?_
    have hhead := congrArg (fun id : UtxoId => id.txHash.val.head?) hab
    simpa [registeredUtxo, Bytes.filled] using hhead
  apart := by
    intro utxo hutxo payment hpayment heq
    obtain ⟨byte, hbyte, rfl⟩ := List.mem_map.mp hutxo
    obtain rfl := List.mem_singleton.mp hpayment
    have hhead := congrArg (fun id : UtxoId => id.txHash.val.head?) heq
    simp [registeredUtxo, Bytes.filled, candidateSample] at hhead
    exact h5 (hhead ▸ hbyte)
  convertible := by
    intro utxo hutxo
    rcases List.mem_append.mp hutxo with hmem | hmem
    · obtain ⟨byte, -, rfl⟩ := List.mem_map.mp hmem
      exact ⟨_, rfl⟩
    · obtain rfl := List.mem_singleton.mp hmem
      exact ⟨_, rfl⟩

theorem ownRegistration_sample (byte : UInt8) :
    ownRegistration registeredFromBytes candidateSample.ownPkh
        candidateSample.stakeOwnership.pubKey (registeredUtxo byte) =
      .ok (some (registeredUtxo byte, candidateSample)) := by
  have hdecode : RegisterValidatorDatum.decode (candidateRegistrationToPlutusData
      candidateSample) = .ok (.ok sampleDatum) := by decide +kernel
  have hregistration : getCandidateRegistration registeredFromBytes (registeredUtxo byte) =
      .ok (.ok candidateSample) := by
    simp [getCandidateRegistration, registeredUtxo, registeredFromBytes, hdecode]
    rfl
  simp [ownRegistration, hregistration]

theorem getOwnRegistrations_sample (bytes : List UInt8) :
    getOwnRegistrations registeredFromBytes candidateSample.ownPkh
        candidateSample.stakeOwnership.pubKey (bytes.map registeredUtxo) =
      .ok (bytes.map fun byte => (registeredUtxo byte, candidateSample)) := by
  refine filterMapM_eq_ok_iff.mpr ⟨?_, ?_⟩
  · intro utxo hutxo
    obtain ⟨byte, -, rfl⟩ := List.mem_map.mp hutxo
    exact ⟨_, ownRegistration_sample byte⟩
  · simp [List.filterMap_map, ownRegistration_sample, Except.toOption]

end Commands

/-! ## Registrations that are skipped -/

/-- The registrations have the same owner, Partner Chain key and signature. -/
def SameOwner (registration existing : CandidateRegistration) : Prop :=
  registration.stakeOwnership = existing.stakeOwnership ∧
    registration.partnerChainPubKey = existing.partnerChainPubKey ∧
    registration.partnerChainSignature = existing.partnerChainSignature

theorem matchesKeys_iff {registration existing : CandidateRegistration} :
    registration.matchesKeys existing = true ↔
      SameOwner registration existing ∧ registration.keys ⊆ existing.keys := by
  simp [CandidateRegistration.matchesKeys, SameOwner, and_assoc, List.subset_def]

section Skipped

variable {lib : SerializationLib} {validator : PlutusScript} {ctx : TransactionContext}
  {client : Client} {first second : IterationOrder} {fromBytes : ByteString → Option PlutusData}
  {registration : CandidateRegistration} {validatorUtxos : List OgmiosUtxo}

/-- A transaction that is built is submitted, so that nothing is skipped then. -/
theorem submitBuilt_eq_none_iff {name : String}
    {built : Except BuildError (Option BalancedTransaction)} :
    submitBuilt client name built = .ok none ↔ built = .ok none := by
  simp only [submitBuilt, bind_eq_ok_iff]
  constructor
  · rintro ⟨result, hbuilt, hsubmit⟩
    cases result with
    | none => exact hbuilt
    | some tx =>
        obtain ⟨txId, -, h⟩ := bind_eq_ok_iff.mp hsubmit
        obtain ⟨_, -, h⟩ := bind_eq_ok_iff.mp h
        cases h
  · intro hbuilt
    exact ⟨none, hbuilt, rfl⟩

theorem runRegister_eq_none_iff {own : List (OgmiosUtxo × CandidateRegistration)}
    (hown : getOwnRegistrations fromBytes registration.ownPkh
      registration.stakeOwnership.pubKey validatorUtxos = .ok own) :
    runRegister lib validator client first second fromBytes ctx registration validatorUtxos =
        .ok none ↔
      (∃ u ∈ ctx.paymentKeyUtxos, u.utxoId = registration.registrationUtxo.val) ∧
        ∃ e ∈ own, SameOwner registration e.2 ∧ registration.keys ⊆ e.2.keys := by
  have hpresent : (∃ u ∈ ctx.paymentKeyUtxos, u.utxoId = registration.registrationUtxo.val) ↔
      (ctx.paymentKeyUtxos.find?
        fun u => u.utxoId = registration.registrationUtxo.val).isSome := by simp
  have hmatch : (∃ e ∈ own, SameOwner registration e.2 ∧ registration.keys ⊆ e.2.keys) ↔
      own.any (fun e => registration.matchesKeys e.2) = true := by
    simp [← matchesKeys_iff]
  rw [runRegister, submitBuilt_eq_none_iff, hpresent, hmatch, buildRegister]
  cases ctx.paymentKeyUtxos.find? fun u => u.utxoId = registration.registrationUtxo.val with
  | none => simp [orElse]
  | some registrationUtxo =>
      simp only [orElse, ok_bind, hown, mapError_ok, Option.isSome_some, true_and]
      cases hany : own.any fun e => registration.matchesKeys e.2 with
      | true => simp
      | false => simp [bind_eq_ok_iff]

/-- Registering is skipped exactly when an own registration has all requested keys. Nothing would
have changed exactly when one that has them all implies one that has no others. -/
theorem skipped_registration_iff (lib : SerializationLib) (validator : PlutusScript)
    (client : Client) (first second : IterationOrder)
    (fromBytes : ByteString → Option PlutusData) (ctx : TransactionContext)
    (registration : CandidateRegistration) (validatorUtxos : List OgmiosUtxo) :
    ∃ own, getOwnRegistrations fromBytes registration.ownPkh
        registration.stakeOwnership.pubKey validatorUtxos = .ok own ∧
      (runRegister lib validator client first second fromBytes ctx registration validatorUtxos =
          .ok none ↔
        (∃ u ∈ ctx.paymentKeyUtxos, u.utxoId = registration.registrationUtxo.val) ∧
          ∃ e ∈ own, SameOwner registration e.2 ∧ registration.keys ⊆ e.2.keys) ∧
      ((runRegister lib validator client first second fromBytes ctx registration validatorUtxos =
          .ok none →
        ∃ e ∈ own, SameOwner registration e.2 ∧ ∀ key, key ∈ e.2.keys ↔ key ∈ registration.keys) ↔
      ((∃ u ∈ ctx.paymentKeyUtxos, u.utxoId = registration.registrationUtxo.val) →
        (∃ e ∈ own, SameOwner registration e.2 ∧ registration.keys ⊆ e.2.keys) →
        ∃ e ∈ own, SameOwner registration e.2 ∧
          ∀ key, key ∈ e.2.keys ↔ key ∈ registration.keys)) := by
  obtain ⟨own, hown⟩ := exists_getOwnRegistrations fromBytes registration.ownPkh
    registration.stakeOwnership.pubKey validatorUtxos
  refine ⟨own, hown, runRegister_eq_none_iff hown, ?_⟩
  rw [runRegister_eq_none_iff hown, and_imp]

/-- The sample candidate is registered with the same keys. -/
theorem skipped_registration_iff_same_keys :
    runRegister sampleLib sampleValidator sampleClient sampleOrder sampleOrder registeredFromBytes
      sampleContext candidateSample ([1].map registeredUtxo) = .ok none := by
  obtain ⟨own, hown, hiff, -⟩ := skipped_registration_iff sampleLib sampleValidator sampleClient
    sampleOrder sampleOrder registeredFromBytes sampleContext candidateSample
    ([1].map registeredUtxo)
  obtain rfl := Except.ok.inj (hown.symm.trans (getOwnRegistrations_sample [1]))
  refine hiff.mpr ⟨⟨_, List.mem_singleton_self _, rfl⟩, _, List.mem_singleton_self _, ?_⟩
  exact ⟨⟨rfl, rfl, rfl⟩, List.Subset.refl _⟩

/-- The sample registration without its Grandpa key. -/
def smallerRequest : CandidateRegistration :=
  { candidateSample with keys := [⟨auraKeyTypeId, [7]⟩] }

/-- A request that drops a key is skipped, and the key stays registered. -/
theorem dropped_key_is_skipped :
    runRegister sampleLib sampleValidator sampleClient sampleOrder sampleOrder registeredFromBytes
        sampleContext smallerRequest ([1].map registeredUtxo) = .ok none ∧
      getOwnRegistrations registeredFromBytes smallerRequest.ownPkh
        smallerRequest.stakeOwnership.pubKey ([1].map registeredUtxo) =
          .ok [(registeredUtxo 1, candidateSample)] ∧
      ⟨grandpaKeyTypeId, [8]⟩ ∈ candidateSample.keys ∧
      ⟨grandpaKeyTypeId, [8]⟩ ∉ smallerRequest.keys := by
  have hown : getOwnRegistrations registeredFromBytes smallerRequest.ownPkh
      smallerRequest.stakeOwnership.pubKey ([1].map registeredUtxo) =
        .ok [(registeredUtxo 1, candidateSample)] := getOwnRegistrations_sample [1]
  refine ⟨(runRegister_eq_none_iff hown).mpr ?_, hown, by decide, by decide⟩
  refine ⟨⟨_, List.mem_singleton_self _, rfl⟩, _, List.mem_singleton_self _, ⟨rfl, rfl, rfl⟩, ?_⟩
  exact List.cons_subset.mpr ⟨List.mem_cons_self, List.nil_subset _⟩

end Skipped

end PartnerChains.SmartContracts
