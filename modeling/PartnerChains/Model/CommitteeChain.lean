import PartnerChains.Library.Transition
import PartnerChains.Algorithm.Committee

/-!
# Runs of the committee state machine

A run starts at genesis. Each block is initialized in an epoch that is not before the
previous one and then dispatches calls, of which the rejected ones change nothing.
-/

namespace PartnerChains.Committee

variable {Member AccountId AuthorityKeys Inputs : Type} {maxValidators : ℕ}

structure Chain (Member AccountId AuthorityKeys : Type) (maxValidators : ℕ) where
  number : ℕ
  currentEpochNumber : ScEpochNumber
  runtime : Runtime Member AccountId AuthorityKeys maxValidators

inductive Event (Member : Type) (maxValidators : ℕ) where
  | initialized (inService : CommitteeInfo Member maxValidators)
  | accepted (call : Call Member maxValidators)
  | rejected (call : Call Member maxValidators) (error : DispatchError)

inductive Step (cfg : Config Member AccountId AuthorityKeys Inputs maxValidators) :
    Chain Member AccountId AuthorityKeys maxValidators → Event Member maxValidators →
      Chain Member AccountId AuthorityKeys maxValidators → Prop
  | initBlock {chain : Chain Member AccountId AuthorityKeys maxValidators}
      {epoch : ScEpochNumber} {runtime : Runtime Member AccountId AuthorityKeys maxValidators} :
      chain.currentEpochNumber ≤ epoch →
      initializeBlock cfg (chain.number + 1) epoch chain.runtime = .ok runtime →
      Step cfg chain (.initialized runtime.management.currentCommittee)
        ⟨chain.number + 1, epoch, runtime⟩
  | accept {chain : Chain Member AccountId AuthorityKeys maxValidators} {origin : Origin}
      {call : Call Member maxValidators} {management : Storage Member maxValidators} :
      0 < chain.number →
      dispatch cfg origin call chain.runtime.management = .ok management →
      Step cfg chain (.accepted call)
        { chain with runtime := { chain.runtime with management } }
  | reject {chain : Chain Member AccountId AuthorityKeys maxValidators} {origin : Origin}
      {call : Call Member maxValidators} {error : DispatchError} :
      0 < chain.number →
      dispatch cfg origin call chain.runtime.management = .error error →
      Step cfg chain (.rejected call error) chain

def system (cfg : Config Member AccountId AuthorityKeys Inputs maxValidators)
    (genesis : GenesisConfig Member) :
    System (Chain Member AccountId AuthorityKeys maxValidators)
      (Event Member maxValidators) where
  Init chain := chain = ⟨0, 0, genesisRuntime cfg genesis⟩
  Step := Step cfg

/-! ## What an observer sees -/

section Observer

variable [DecidableEq Member]

/-- A committee enters service when it is current and was not current before. -/
def observe (served : List (CommitteeInfo Member maxValidators)) :
    Event Member maxValidators → List (CommitteeInfo Member maxValidators)
  | .initialized inService =>
      if served.getLast? = some inService then served else served ++ [inService]
  | _ => served

/-- The committees in the order in which they entered service. -/
def served (trace : List (Event Member maxValidators)) :
    List (CommitteeInfo Member maxValidators) :=
  trace.foldl observe []

@[simp]
theorem served_nil : served ([] : List (Event Member maxValidators)) = [] := rfl

@[simp]
theorem served_append_singleton (trace : List (Event Member maxValidators))
    (event : Event Member maxValidators) :
    served (trace ++ [event]) = observe (served trace) event := by
  simp [served]

end Observer

def Event.stored? : Event Member maxValidators → Option (CommitteeInfo Member maxValidators)
  | .accepted (.set validators forEpochNumber _) => some ⟨forEpochNumber, validators⟩
  | _ => none

def stored (trace : List (Event Member maxValidators)) :
    List (CommitteeInfo Member maxValidators) :=
  trace.filterMap Event.stored?

@[simp]
theorem stored_nil : stored ([] : List (Event Member maxValidators)) = [] := rfl

@[simp]
theorem stored_append_singleton (trace : List (Event Member maxValidators))
    (event : Event Member maxValidators) :
    stored (trace ++ [event]) = stored trace ++ event.stored?.toList := by
  cases h : event.stored? <;> simp [stored, h]

end PartnerChains.Committee
