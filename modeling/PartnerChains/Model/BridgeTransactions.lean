import PartnerChains.Algorithm.ReserveRelease
import PartnerChains.Model.BridgeChain

/-!
# Bridge transactions and their rows in the database

A request is turned into a transaction by one of the builders. The ledger accepts it, and its
rows appear in the database.
-/

namespace PartnerChains.SmartContracts

open DbSync Bridge

/-! ## Requests -/

inductive BridgeRequest where
  | depositOnly (tokenAmount : TokenAmount) (pcAddress : ByteString)
  | deposit (icsUtxo : OgmiosUtxo) (tokenAmount : TokenAmount) (pcAddress : ByteString)
  | release (reserve : ReserveUtxo) (icsUtxo : OgmiosUtxo) (vFunction : Option PlutusScript)
      (amount : UInt64) (costs : Costs)
  | handover (reserve : ReserveUtxo)

namespace BridgeRequest

/-- Of a balanced release, the inputs are the outputs of the validators that it spends. -/
def build (lib : SerializationLib) (ctx : TransactionContext) (scripts : ScriptsData) :
    BridgeRequest → Except BuildError Transaction
  | depositOnly tokenAmount pcAddress => depositOnlyTx scripts.icsAddress tokenAmount pcAddress
  | deposit icsUtxo tokenAmount pcAddress =>
      depositTx scripts.icsAddress icsUtxo tokenAmount pcAddress
  | release reserve icsUtxo vFunction amount costs => do
      let tx ← reserveReleaseTx lib ctx scripts reserve icsUtxo vFunction amount costs
      .ok { inputs := [reserve.utxo, icsUtxo].filter fun utxo => utxo.utxoId ∈ tx.inputs
            outputs := tx.outputs
            mint := tx.mint.map fun minting => (minting.policy, minting.amount) }
  | handover reserve => handoverReserveTx scripts reserve

def tokenAmount : BridgeRequest → TokenAmount
  | depositOnly tokenAmount _ | deposit _ tokenAmount _ => tokenAmount
  | release reserve _ _ amount _ => ⟨reserve.datum.immutableSettings.token, amount⟩
  | handover reserve => getAmountToRelease reserve

def transferDatum : BridgeRequest → TokenTransferDatum
  | depositOnly _ pcAddress | deposit _ _ pcAddress => .userTransfer pcAddress
  | release .. | handover _ => .reserveTransfer

def icsInput : BridgeRequest → Option OgmiosUtxo
  | deposit icsUtxo _ _ | release _ icsUtxo _ _ _ => some icsUtxo
  | depositOnly .. | handover _ => none

def reserveInput : BridgeRequest → Option OgmiosUtxo
  | release reserve _ _ _ _ | handover reserve => some reserve.utxo
  | depositOnly .. | deposit .. => none

/-- The spent outputs were found at the addresses of their validators. -/
structure WellPlaced (scripts : ScriptsData) (request : BridgeRequest) : Prop where
  addresses : scripts.reserveAddress ≠ scripts.icsAddress
  ics : ∀ utxo ∈ request.icsInput, utxo.address = scripts.icsAddress
  reserve : ∀ utxo ∈ request.reserveInput, utxo.address = scripts.reserveAddress

/-- The token amount of the spent output at the illiquid supply. -/
def icsBalance (request : BridgeRequest) : ℕ :=
  request.icsInput.elim 0 fun utxo => (utxo.getAssetAmount request.tokenAmount.token).toNat

end BridgeRequest

/-- The transfer of a kind, of which a receiver that does not parse makes an invalid one. -/
def transferOf {Recipient : Type} (recipientTryFrom : ByteString → Option Recipient)
    (datum : TokenTransferDatum) (amount : UInt64) (utxoId : UtxoId) :
    BridgeTransferV1 Recipient :=
  match datum with
  | .reserveTransfer => .reserveTransfer amount
  | .userTransfer receiver =>
      match recipientTryFrom receiver with
      | some recipient => .userTransfer amount recipient
      | none => .invalidTransfer amount utxoId

def observerScripts (scripts : ScriptsData) (token : AssetId) : MainChainScripts where
  tokenPolicyId := token.policyId
  tokenAssetName := token.assetName.toList
  illiquidCirculationSupplyValidatorAddress := scripts.icsAddress

/-! ## Rows -/

/-- The rows of an output list its tokens with their amounts. -/
structure Holds (db : Database) (row : TxOutRow) (tokens : MultiAsset) : Prop where
  listed : ∀ policyId assetName, tokens.getAsset policyId assetName ≠ 0 →
    ∃ asset ∈ db.multiAsset, asset.policy = policyId ∧ asset.name = assetName ∧
      ∃ held ∈ db.maTxOut, held.txOutId = row.id ∧ held.ident = asset.id
  amount : ∀ held ∈ db.maTxOut, ∀ asset ∈ db.multiAsset, held.txOutId = row.id →
    held.ident = asset.id → held.quantity = (tokens.getAsset asset.policy asset.name).toNat

/-- The row of an output that Ogmios reports. -/
structure IsRowOf (db : Database) (utxo : OgmiosUtxo) (row : TxOutRow) : Prop where
  address : row.address = utxo.address
  index : row.index = utxo.utxoId.index
  tx : ∃ tx ∈ db.tx, row.txId = tx.id ∧ tx.hash = utxo.utxoId.txHash
  tokens : Holds db row utxo.value.nativeTokens

/-- The row of an output that a transaction creates. -/
structure IsRowOfOutput (db : Database) (output : TransactionOutput) (row : TxOutRow) : Prop where
  address : row.address = output.address
  tokens : Holds db row output.multiasset
  datum : ∀ data, output.plutusData = some data →
    ∃ datum ∈ db.datum, some datum.hash = row.dataHash ∧ datum.value = .data data

/-- A transaction is in the database. Balancing has added neither inputs nor outputs at the
address. -/
structure Recorded (cfg : TxInConfiguration) (db : Database) (address : String)
    (built : Transaction) (tx : TxRow) (blockNo : ℕ) (out : TxOutRow) : Prop where
  tx_mem : tx ∈ db.tx
  block : ∃ block ∈ db.block, tx.blockId = block.id ∧ block.blockNo = some blockNo
  out_mem : out ∈ db.txOut
  out_tx : out.txId = tx.id
  out_only : ∀ other ∈ db.txOut, other.txId = tx.id → other.address = address → other = out
  outputs : ∀ output ∈ built.outputs, output.address = address → IsRowOfOutput db output out
  inputs : ∃ spent, SpentAt cfg db address tx spent ∧
    List.Forall₂ (IsRowOf db) (built.inputs.filter fun utxo => utxo.address = address) spent.toList

end PartnerChains.SmartContracts
