import PartnerChains.Library.Transition
import PartnerChains.Algorithm.GovernedMapPallet

/-!
# Blocks and runs of the governed map

Each block refers to a main chain block. Its inherent comes from the data of that block, and
any other calls of the pallet follow.
-/

namespace PartnerChains.GovernedMap

open DbSync Relational

/-- What stays the same during a run: the main chain history, and in which order rows of one
transaction are returned. -/
structure Setup where
  config : Config
  order : Arrangement DatumAtRow.orderKey
  db : Database
  txInConfig : TxInConfiguration

def Setup.source (setup : Setup) : DataSource :=
  uncachedSource setup.order setup.db setup.txInConfig

/-- A call that is not an inherent: it has an origin. -/
structure Extrinsic (cfg : Config) where
  origin : Origin
  call : Call cfg
  signed : origin ≠ .none

structure Chain (cfg : Config) where
  number : ℕ
  /-- The main chain block that the last block refers to. -/
  reference : Option McBlockHash
  runtime : Runtime cfg

inductive BlockError where
  | dataSource (error : SourceError)
  | panic (panic : Panic)
  | dispatch (error : DispatchError)

/-- The inherent of a block, built on its parent and dispatched. -/
def executeInherent (setup : Setup) (chain : Chain setup.config) (reference : McBlockHash) :
    Except BlockError (Runtime setup.config) :=
  match newV1 chain.runtime.storage reference chain.reference setup.source with
  | .error error => .error (.dataSource error)
  | .ok provider =>
      match createInherent chain.runtime.storage provider.provideInherentData with
      | .error panic => .error (.panic panic)
      | .ok none => .ok chain.runtime
      | .ok (some call) =>
          (dispatch .none (chain.number + 1) call chain.runtime).mapError .dispatch

/-- A call that fails changes nothing. -/
def executeExtrinsic {cfg : Config} (currentBlock : ℕ) (r : Runtime cfg)
    (extrinsic : Extrinsic cfg) : Runtime cfg :=
  match dispatch extrinsic.origin currentBlock extrinsic.call r with
  | .ok r => r
  | .error _ => r

def produceBlock (setup : Setup) (chain : Chain setup.config) (reference : McBlockHash)
    (extrinsics : List (Extrinsic setup.config)) : Except BlockError (Chain setup.config) := do
  let r ← executeInherent setup chain reference
  .ok { number := chain.number + 1
        reference := some reference
        runtime := extrinsics.foldl (executeExtrinsic (chain.number + 1)) r }

inductive Step (setup : Setup) : Chain setup.config → McBlockHash → Chain setup.config → Prop
  | block {chain chain' : Chain setup.config} {reference : McBlockHash}
      {extrinsics : List (Extrinsic setup.config)} :
      produceBlock setup chain reference extrinsics = .ok chain' →
      Step setup chain reference chain'

/-- The system starts with the pallet's genesis storage, with or without scripts, at any
block: the pallet may be added to a running chain. -/
def system (setup : Setup) : System (Chain setup.config) McBlockHash where
  Init chain := ∃ number reference mainChainScripts,
    chain = ⟨number, reference, genesisBuild setup.config mainChainScripts, []⟩
  Step := Step setup

/-- The number of changes, the keys and the values respect the bounds of the pallet. -/
structure WithinBounds (cfg : Config) (before after : Mappings) : Prop where
  changes : (updatedEntries before after ++ removedEntries before after).length ≤
    cfg.maxChanges.toNat
  entries : ∀ (key : String) (value : ByteString), after[key]? = some value →
    key.utf8ByteSize ≤ cfg.maxKeyLength.toNat ∧ value.length ≤ cfg.maxValueLength.toNat

end PartnerChains.GovernedMap
