import PartnerChains.Algorithm.GovernedMap
import PartnerChains.Model.Schema

/-!
# The outputs that hold the governed map

An entry of the map lives from the transaction that creates its output to the one that
spends it. Several outputs may hold the same key.
-/

namespace PartnerChains.DbSync

open Relational

/-- An output with the token of the map: when it is created and when it is spent. -/
structure MapOutput where
  datum : DatumValue
  created : TxPosition
  spent : Option TxPosition
  deriving DecidableEq

/-- When an output is spent; nothing when it never is. -/
def spendings (cfg : TxInConfiguration) (db : Database) (txOut : TxOutRow) :
    List (Option TxPosition) := do
  let (_, tx) ← consumingTx cfg db txOut
  let block ← consumingBlock db tx
  match tx, block.bind (·.blockNo) with
  | some tx, some blockNo => [some (toLex (blockNo, tx.blockIndex))]
  | _, _ => [none]

def mapOutputs (cfg : TxInConfiguration) (db : Database) (address : String) (asset : Asset) :
    List MapOutput := do
  let txOut ← db.txOut
  let originTx ← db.tx.filter fun tx => txOut.txId = tx.id
  let originBlock ← db.block.filter fun row => originTx.blockId = row.id
  let spent ← spendings cfg db txOut
  let datum ← db.datum.filter fun datum => txOut.dataHash = some datum.hash
  let maTxOut ← db.maTxOut.filter fun tokens => txOut.id = tokens.txOutId
  let multiAsset ← db.multiAsset.filter fun multiAsset => multiAsset.id = maTxOut.ident
  match originBlock.blockNo with
  | none => []
  | some blockNo =>
      if txOut.address = address ∧ multiAsset.policy = asset.policyId ∧
          multiAsset.name = asset.assetName then
        [⟨datum.value, toLex (blockNo, originTx.blockIndex), spent⟩]
      else []

def MapOutput.LiveAt (output : MapOutput) (block : ℕ) : Prop :=
  output.created.1 ≤ block ∧ ∀ position ∈ output.spent, block < position.1

def DatumValue.entry : DatumValue → Option GovernedMapDatum
  | .data datum =>
      match GovernedMapDatum.tryFrom datum with
      | .ok (.ok entry) => some entry
      | _ => none
  | _ => none

/-- Reading the datum neither fails nor panics. -/
def DatumValue.Readable : DatumValue → Prop
  | .data datum => (GovernedMapDatum.tryFrom datum).isOk
  | _ => False

instance : (value : DatumValue) → Decidable value.Readable
  | .data datum => inferInstanceAs (Decidable ((GovernedMapDatum.tryFrom datum).isOk = true))
  | .null | .malformed => isFalse id

namespace MapOutput

def Stores (output : MapOutput) (key : String) (value : ByteString) : Prop :=
  output.datum.entry = some ⟨key, value⟩

def Holds (output : MapOutput) (key : String) : Prop :=
  ∃ value, output.Stores key value

/-- The output is the newest, at the block, of those that hold the key. -/
structure IsNewest (output : MapOutput) (outputs : List MapOutput) (block : ℕ) (key : String) :
    Prop where
  mem : output ∈ outputs
  live : output.LiveAt block
  holds : output.Holds key
  newest : ∀ other ∈ outputs, other.LiveAt block → other.Holds key →
    other.created ≤ output.created

def ActedAt (output : MapOutput) (action : GovernedMapAction) (position : TxPosition) : Prop :=
  match action with
  | .create => output.created = position
  | .spend => output.spent = some position

end MapOutput

def InRange (afterBlock : Option ℕ) (toBlock block : ℕ) : Prop :=
  afterBlock.all (· < block) = true ∧ block ≤ toBlock

instance (afterBlock : Option ℕ) (toBlock block : ℕ) :
    Decidable (InRange afterBlock toBlock block) :=
  inferInstanceAs (Decidable (_ ∧ _))

/-! ## State and changes of a key

The history of the map, read from its outputs. A key may have several values in a block
when one transaction creates several outputs for it. -/

/-- What the map holds under the key after the block. -/
def StateAt (outputs : List MapOutput) (block : ℕ) (key : String) : Option ByteString → Prop
  | none => ∀ output ∈ outputs, output.LiveAt block → ¬ output.Holds key
  | some value => ∃ output : MapOutput,
      output.IsNewest outputs block key ∧ output.Stores key value

/-- What the map holds under the key when the changes begin. -/
def StartsAt (outputs : List MapOutput) (since : Option ℕ) (key : String)
    (value : Option ByteString) : Prop :=
  match since with
  | none => value = none
  | some block => StateAt outputs block key value

/-- The last change of the key in the range. Of the changes that one transaction makes, the
creations come after the spendings. -/
structure IsLastChange (outputs : List MapOutput) (since : Option ℕ) (upTo : ℕ) (key : String)
    (output : MapOutput) (action : GovernedMapAction) (position : TxPosition) : Prop where
  mem : output ∈ outputs
  holds : output.Holds key
  acted : output.ActedAt action position
  inRange : InRange since upTo position.1
  last : ∀ other ∈ outputs, other.Holds key → ∀ action' position',
    other.ActedAt action' position' → InRange since upTo position'.1 →
      position' < position ∨ position' = position ∧ action'.order ≤ action.order

/-- What the last change of the key writes, if there is a change. -/
def ChangeIn (outputs : List MapOutput) (since : Option ℕ) (upTo : ℕ) (key : String) :
    Option (Option ByteString) → Prop
  | none => ∀ output ∈ outputs, output.Holds key → ∀ action position,
      output.ActedAt action position → ¬ InRange since upTo position.1
  | some none => ∃ output position, IsLastChange outputs since upTo key output .spend position
  | some (some value) => ∃ output position,
      IsLastChange outputs since upTo key output .create position ∧ output.Stores key value

/-- A key that is still held is set again after each of its outputs that is spent. -/
def Renewed (outputs : List MapOutput) (since : Option ℕ) (upTo : ℕ) : Prop :=
  ∀ key, ∀ output ∈ outputs, output.Holds key → ∀ position, output.spent = some position →
    InRange since upTo position.1 → ∀ live ∈ outputs, live.Holds key → live.LiveAt upTo →
      ∃ renewal ∈ outputs, renewal.Holds key ∧ position ≤ renewal.created ∧
        renewal.created.1 ≤ upTo

/-- The newest outputs of a key agree on its value. -/
def Unambiguous (outputs : List MapOutput) (block : ℕ) : Prop :=
  ∀ key, ∀ output other : MapOutput, output.IsNewest outputs block key →
    other.IsNewest outputs block key → output.datum.entry = other.datum.entry

/-- The data that are read for the changes from `since` to `maxSearch`, and for the state
before them, can be read. -/
def ReadableHistory (outputs : List MapOutput) (since : Option ℕ) (maxSearch : ℕ) : Prop :=
  ∀ output ∈ outputs, output.created.1 ≤ maxSearch →
    (∀ start ∈ since, ∀ position ∈ output.spent, start < position.1) → output.datum.Readable

end PartnerChains.DbSync
