import PartnerChains.Algorithm.RegisteredCandidates
import PartnerChains.Algorithm.TransactionBuilding

/-!
# Registration and deregistration of a candidate

Anyone can create an output at the address of the registration validator, with any datum. The
own registrations of a candidate are those whose datum names the stake pool key and the key hash
of the owner. Registering replaces all of them, and deregistering spends all of them.
-/

namespace PartnerChains.SmartContracts

open AuthoritySelection RegisteredCandidates

/-! ## Own registrations -/

/-- What is logged about an output that is not a registration. -/
inductive RegistrationError where
  | noDatum
  | notPlutusData
  | notARegistration (error : DataDecodingError)
  deriving DecidableEq

section Own

variable (fromBytes : ByteString → Option PlutusData)

def getCandidateRegistration (validatorUtxo : OgmiosUtxo) :
    Except Panic (Except RegistrationError CandidateRegistration) :=
  match validatorUtxo.datum with
  | none => .ok (.error .noDatum)
  | some bytes =>
      match fromBytes bytes with
      | none => .ok (.error .notPlutusData)
      | some datumPlutusData => do
          match ← RegisterValidatorDatum.decode datumPlutusData with
          | .error e => .ok (.error (.notARegistration e))
          | .ok registerValidatorDatum => .ok (.ok (.ofDatum registerValidatorDatum))

def ownRegistration (ownPkh : MainchainKeyHash) (spoPubKey : StakePoolPublicKey)
    (validatorUtxo : OgmiosUtxo) : Except Panic (Option (OgmiosUtxo × CandidateRegistration)) := do
  match ← getCandidateRegistration fromBytes validatorUtxo with
  | .ok candidateRegistration =>
      .ok (if candidateRegistration.stakeOwnership.pubKey = spoPubKey ∧
          candidateRegistration.ownPkh = ownPkh then some (validatorUtxo, candidateRegistration)
        else none)
  | .error _ => .ok none

def getOwnRegistrations (ownPkh : MainchainKeyHash) (spoPubKey : StakePoolPublicKey)
    (validatorUtxos : List OgmiosUtxo) :
    Except Panic (List (OgmiosUtxo × CandidateRegistration)) :=
  validatorUtxos.filterMapM (ownRegistration fromBytes ownPkh spoPubKey)

end Own

/-! ## Transactions -/

def registerRedeemerData : PlutusData := unitPlutusData

/-- Each own registration is spent with the cost of the only script input. -/
def ownRegistrationInputs (validator : PlutusScript) (ownRegistrationUtxos : List OgmiosUtxo)
    (costs : Costs) : Except BuildError (List ScriptInput) :=
  ownRegistrationUtxos.mapM fun ownRegistrationUtxo => do
    let exUnits ← costs.getOneSpend.mapError .panic
    addScriptUtxoInput ownRegistrationUtxo validator registerRedeemerData exUnits

section Transactions

variable (lib : SerializationLib) (validator : PlutusScript)

def registerTx (candidateRegistration : CandidateRegistration) (registrationUtxo : OgmiosUtxo)
    (ownRegistrationUtxos : List OgmiosUtxo) (costs : Costs) (ctx : TransactionContext) :
    Except BuildError BalancedTransaction := do
  let inputs ← ownRegistrationInputs validator ownRegistrationUtxos costs
  let registrationInput ← scriptInput registrationUtxo
  let datum := candidateRegistrationToPlutusData candidateRegistration
  balanceUpdateAndBuild lib
    { scriptInputs := inputs
      regularInputs := [registrationInput]
      outputs := [⟨validator.address, some datum, ∅⟩] } ctx

def deregisterTx (ownRegistrationUtxos : List OgmiosUtxo) (costs : Costs)
    (ctx : TransactionContext) : Except BuildError BalancedTransaction := do
  let inputs ← ownRegistrationInputs validator ownRegistrationUtxos costs
  balanceUpdateAndBuild lib { scriptInputs := inputs } ctx

/-! ## Commands -/

variable (client : Client) (first second : IterationOrder)
  (fromBytes : ByteString → Option PlutusData) (ctx : TransactionContext)

/-- The transaction that registers a candidate, unless there is nothing to do. -/
def buildRegister (candidateRegistration : CandidateRegistration)
    (allRegistrationUtxos : List OgmiosUtxo) :
    Except BuildError (Option BalancedTransaction) := do
  let registrationUtxo ← orElse (.anyhow ⟨"registration utxo not found at payment address"⟩)
    (ctx.paymentKeyUtxos.find? fun u => u.utxoId = candidateRegistration.registrationUtxo.val)
  let ownRegistrations ← (getOwnRegistrations fromBytes candidateRegistration.ownPkh
    candidateRegistration.stakeOwnership.pubKey allRegistrationUtxos).mapError .panic
  if ownRegistrations.any fun own => candidateRegistration.matchesKeys own.2 then .ok none
  else do
    let tx ← Costs.calculateCosts (fun costs => registerTx lib validator candidateRegistration
      registrationUtxo (ownRegistrations.map (·.1)) costs ctx) client first second
    .ok (some tx)

/-- The transaction that deregisters a candidate, unless there is nothing to do. -/
def buildDeregister (stakeOwnershipPubKey : StakePoolPublicKey)
    (allRegistrationUtxos : List OgmiosUtxo) :
    Except BuildError (Option BalancedTransaction) := do
  let ownRegistrations ← (getOwnRegistrations fromBytes ctx.paymentKeyHash stakeOwnershipPubKey
    allRegistrationUtxos).mapError .panic
  if ownRegistrations.isEmpty then .ok none
  else do
    let tx ← Costs.calculateCosts (fun costs => deregisterTx lib validator
      (ownRegistrations.map (·.1)) costs ctx) client first second
    .ok (some tx)

/-- A transaction that was built is signed and submitted. The message of an error ends with the
bytes of the transaction, which are left out here. -/
def submitBuilt (name : String) (built : Except BuildError (Option BalancedTransaction)) :
    Except BuildError (Option McTxHash) := do
  match ← built with
  | none => .ok none
  | some tx => do
      let txId ← (client.submitTransaction tx).mapError fun e =>
        let message := e.message
        .anyhow ⟨s!"Submit candidate {name} transaction request failed: {message}"⟩
      let _ ← (client.awaitTxOutput txId).mapError .anyhow
      .ok (some txId)

def runRegister (candidateRegistration : CandidateRegistration)
    (allRegistrationUtxos : List OgmiosUtxo) : Except BuildError (Option McTxHash) :=
  submitBuilt client "registration" (buildRegister lib validator client first second fromBytes ctx
    candidateRegistration allRegistrationUtxos)

def runDeregister (stakeOwnershipPubKey : StakePoolPublicKey)
    (allRegistrationUtxos : List OgmiosUtxo) : Except BuildError (Option McTxHash) :=
  submitBuilt client "deregistration" (buildDeregister lib validator client first second fromBytes
    ctx stakeOwnershipPubKey allRegistrationUtxos)

end Transactions

end PartnerChains.SmartContracts
