import PartnerChains.Library.Transition
import PartnerChains.Algorithm.CandidatesCache

/-!
# The caching data source over a main chain that is rolled back

The numbered blocks of the database are the main chain, oldest first. Between two calls blocks
are appended, or at most the security parameter of the newest blocks are replaced by others.
-/

namespace PartnerChains.Candidates

open DbSync AuthoritySelection

/-! ## The main chain -/

/-- Block numbers are consecutive, and epochs do not decrease. -/
structure MainChain (blocks : List (ℕ × BlockRow)) : Prop where
  consecutive : ∃ first, blocks.map Prod.fst = List.range' first blocks.length
  epochs : blocks.Pairwise fun a b =>
    ∀ first ∈ a.2.epochNo, ∀ last ∈ b.2.epochNo, first ≤ last

/-- At most the security parameter of the newest blocks are replaced. -/
def Replaced (securityParameter : UInt32) (blocks blocks' : List (ℕ × BlockRow)) : Prop :=
  ∃ kept dropped added, blocks = kept ++ dropped ∧ blocks' = kept ++ added ∧
    dropped.length ≤ securityParameter.toNat

/-- How many of the oldest blocks have at least the security parameter of blocks above them. -/
def depth (securityParameter : UInt32) (blocks : List (ℕ × BlockRow)) : ℕ :=
  blocks.length - securityParameter.toNat

def blocksUpTo (blocks : List (ℕ × BlockRow)) (epoch : McEpochNumber) : List (ℕ × BlockRow) :=
  blocks.filter fun block => block.2.epochNo.any fun blockEpoch => blockEpoch ≤ epoch

def Ended (blocks : List (ℕ × BlockRow)) (epoch : McEpochNumber) : Prop :=
  ∃ block ∈ blocks, ∃ later ∈ block.2.epochNo, epoch < later

/-- Once a later epoch has begun, the answers for an epoch depend on the blocks up to that
epoch only. `Recorded` tells which databases Db-Sync writes. -/
structure EpochQueries.Settled {ε : Type} (inner : EpochQueries ε) (Recorded : Database → Prop) :
    Prop where
  ariadneParameters : ∀ db db' epoch, Recorded db → Recorded db' →
    Ended (numberedBlocks db) epoch → Ended (numberedBlocks db') epoch →
    blocksUpTo (numberedBlocks db) epoch = blocksUpTo (numberedBlocks db') epoch →
    inner.ariadneParameters db epoch = inner.ariadneParameters db' epoch
  candidates : ∀ db db' epoch, Recorded db → Recorded db' →
    Ended (numberedBlocks db) epoch → Ended (numberedBlocks db') epoch →
    blocksUpTo (numberedBlocks db) epoch = blocksUpTo (numberedBlocks db') epoch →
    inner.candidates db epoch = inner.candidates db' epoch

/-! ## Calls between changes of the database -/

structure State (L : Type → Type → Type) where
  db : Database
  /-- How many of the oldest blocks have ever had that many blocks above them. -/
  deepest : ℕ
  caches : Caches L

/-- A call is observed with the database at that moment, its arguments and its answer. -/
inductive Event (ε : Type) where
  | changed (db : Database)
  | candidates (db : Database) (epoch : McEpochNumber) (address : MainchainAddress)
      (answer : Except (DataSourceError ε) (List CandidateRegistrations))
  | ariadneParameters (db : Database) (epoch : McEpochNumber)
      (dParameterPolicy permissionedCandidatesPolicy : PolicyId)
      (answer : Except (DataSourceError ε) AriadneParameters)

section System

variable {L : Type → Type → Type} [LruCache L] {ε : Type} (Recorded : Database → Prop)
  (source : CandidateDataSourceCached ε)

inductive Step : State L → Event ε → State L → Prop
  | change {s : State L} {db : Database} : Recorded db → MainChain (numberedBlocks db) →
      Replaced source.securityParameter (numberedBlocks s.db) (numberedBlocks db) →
      Step s (.changed db) { s with
        db, deepest := max s.deepest (depth source.securityParameter (numberedBlocks db)) }
  | candidates {s : State L} (epoch : McEpochNumber) (address : MainchainAddress) :
      Step s (.candidates s.db epoch address (source.getCandidates s.db epoch address s.caches).1)
        { s with caches := (source.getCandidates s.db epoch address s.caches).2 }
  | ariadneParameters {s : State L} (epoch : McEpochNumber)
      (dParameterPolicy permissionedCandidatesPolicy : PolicyId) :
      Step s (.ariadneParameters s.db epoch dParameterPolicy permissionedCandidatesPolicy
          (source.getAriadneParameters s.db epoch dParameterPolicy permissionedCandidatesPolicy
            s.caches).1)
        { s with caches := (source.getAriadneParameters s.db epoch dParameterPolicy
            permissionedCandidatesPolicy s.caches).2 }

def system : System (State L) (Event ε) where
  Init s := Recorded s.db ∧ MainChain (numberedBlocks s.db) ∧
    s.deepest = depth source.securityParameter (numberedBlocks s.db) ∧
    ∃ size positive, s.caches = .new size positive
  Step := Step Recorded source

end System

/-- A successful answer is the one of the Db-Sync data source on the same database. -/
def Event.Transparent {ε : Type} (inner : EpochQueries ε) : Event ε → Prop
  | .changed _ => True
  | .candidates db epoch address answer =>
      ∀ response, answer = .ok response → inner.getCandidates db epoch address = .ok response
  | .ariadneParameters db epoch dParameterPolicy permissionedCandidatesPolicy answer =>
      ∀ response, answer = .ok response → inner.getAriadneParameters db epoch dParameterPolicy
        permissionedCandidatesPolicy = .ok response

/-- A security parameter from 2 ^ 31 on is bound as a negative number. It selects no block as
long as the numbers of the blocks stay below its distance from 2 ^ 32. -/
def BoundInRange {L : Type → Type → Type} (securityParameter : UInt32) (s : State L) : Prop :=
  ∀ block ∈ numberedBlocks s.db, block.1 + securityParameter.toNat < 2 ^ 32

/-- No block is dropped that has ever had the security parameter of blocks above it. -/
def KeepsDeepest {L : Type → Type → Type} {ε : Type} (s : State L) : Event ε → Prop
  | .changed db => (numberedBlocks s.db).take s.deepest <+: numberedBlocks db
  | _ => True

end PartnerChains.Candidates
