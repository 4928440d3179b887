import PartnerChains.Algorithm.AuthoritySelection
import PartnerChains.Model.CommitteeChain

/-!
# Runs of the committee pallet with the selection of the toolkit

The pallet is configured with the selection from main chain data, and the committees that
are stored come from the inherent that block authors create.
-/

namespace PartnerChains.Committee

open AuthoritySelection (AuthoritySelectionInputs CommitteeMember selectAuthoritiesWith)
open Selection (Rng)

section Configuration

variable {AccountId AccountKeys : Type} [LinearOrder AccountId] [LinearOrder AccountKeys]

/-- What a chain fixes for the selection: the build, the generator, the runtime and the genesis
output. -/
structure SelectionSetup (AccountId AccountKeys : Type) where
  overflowChecks : Bool
  rng : Rng
  runtime : AuthoritySelection.Runtime AccountId AccountKeys
  genesisUtxo : UtxoId

/-- The selection as the runtime calls it; it may stop with an overflow. -/
def SelectionSetup.select (setup : SelectionSetup AccountId AccountKeys) (maxValidators : ℕ)
    (inputs : AuthoritySelectionInputs) (epoch : ScEpochNumber) :
    Except Panic (Option (BoundedVec (CommitteeMember AccountId AccountKeys) maxValidators)) :=
  selectAuthoritiesWith setup.rng setup.runtime setup.overflowChecks maxValidators
    setup.genesisUtxo inputs epoch

def ariadneConfig (setup : SelectionSetup AccountId AccountKeys) (maxValidators : ℕ)
    (inputsHash : AuthoritySelectionInputs → Bytes 32) (mainChainScriptsOrigin : Origin → Bool) :
    Config (CommitteeMember AccountId AccountKeys) AccountId AccountKeys
      AuthoritySelectionInputs maxValidators where
  selectAuthorities inputs epoch := (setup.select maxValidators inputs epoch).toOption.join
  authorityId := CommitteeMember.authorityId
  authorityKeys := CommitteeMember.authorityKeys
  inputsHash
  mainChainScriptsOrigin

end Configuration

variable {Member AccountId AuthorityKeys Inputs : Type} {maxValidators : ℕ}

/-- A committee is stored by the call that was created in this state from some inputs that
meet a condition. -/
def CreatedFrom (cfg : Config Member AccountId AuthorityKeys Inputs maxValidators)
    (Condition : Inputs → ScEpochNumber → Prop)
    (chain : Chain Member AccountId AuthorityKeys maxValidators) :
    Event Member maxValidators → Prop
  | .accepted (.set validators forEpochNumber hash) =>
      ∃ inputs, Condition inputs forEpochNumber ∧
        createInherent cfg chain.runtime.management (.ok (some inputs)) =
          .ok (some (.set validators forEpochNumber hash))
  | _ => True

end PartnerChains.Committee
