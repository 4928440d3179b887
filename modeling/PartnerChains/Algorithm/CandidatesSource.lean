import PartnerChains.Algorithm.RegisteredCandidates

/-!
# Registrations at the committee candidate address

The data source reads the registrations from the datums of the outputs at the address. Outputs
without a datum, and outputs whose datum is not a registration, are logged and left out.
-/

namespace PartnerChains.Candidates

open AuthoritySelection RegisteredCandidates

structure MainchainTxOutput where
  utxoId : UtxoId
  txBlockNo : McBlockNumber
  txSlotNo : McSlotNumber
  txEpochNo : McEpochNumber
  txIndexInBlock : McTxIndexInBlock
  address : String
  datum : Option PlutusData
  txInputs : List UtxoId
  deriving DecidableEq

structure ParsedCandidate where
  utxoInfo : UtxoInfo
  datum : RegisterValidatorDatum
  txInputs : List UtxoId
  deriving DecidableEq

/-- What is logged about an output that is left out. -/
inductive ParseFailure where
  | missingDatum (utxoId : UtxoId)
  | invalidDatum (utxoId : UtxoId)
  deriving DecidableEq

def parseCandidate (output : MainchainTxOutput) :
    Except Panic (Except ParseFailure ParsedCandidate) :=
  match output.datum with
  | none => .ok (.error (.missingDatum output.utxoId))
  | some datum => do
      match ← RegisterValidatorDatum.decode datum with
      | .error _ => .ok (.error (.invalidDatum output.utxoId))
      | .ok registerValidatorDatum =>
          .ok (.ok {
            utxoInfo :=
              { utxoId := output.utxoId
                epochNumber := output.txEpochNo
                blockNumber := output.txBlockNo
                slotNumber := output.txSlotNo
                txIndexWithinBlock := output.txIndexInBlock }
            datum := registerValidatorDatum
            txInputs := output.txInputs })

def parseCandidates (outputs : List MainchainTxOutput) : Except Panic (List ParsedCandidate) := do
  let results ← outputs.mapM parseCandidate
  .ok (results.filterMap Except.toOption)

end PartnerChains.Candidates
