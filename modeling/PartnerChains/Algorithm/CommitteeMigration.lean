import PartnerChains.Library.Scale
import PartnerChains.Algorithm.Committee

/-!
# The storage migration of the session committee pallet

The first version of the pallet stored pairs of an authority and its keys, the present one stores
committee members. Both versions use the same storage keys, so that a cell is read as what its
reader takes it for.
-/

namespace PartnerChains.Committee.Migration

open Reading Scale

/-- Committees of the first version. -/
abbrev LegacyCommitteeInfo (AuthorityId AuthorityKeys : Type) (maxValidators : ℕ) :=
  CommitteeInfo (AuthorityId × AuthorityKeys) maxValidators

/-- The types of the runtime. A member that was made of a pair has its two parts. -/
structure Config (Member AuthorityId AuthorityKeys : Type) where
  maxValidators : UInt32
  memberFrom : AuthorityId × AuthorityKeys → Member
  authorityId : Member → AuthorityId
  authorityKeys : Member → AuthorityKeys
  authorityId_memberFrom : ∀ pair, authorityId (memberFrom pair) = pair.1
  authorityKeys_memberFrom : ∀ pair, authorityKeys (memberFrom pair) = pair.2
  pairCodec : Codec (AuthorityId × AuthorityKeys)
  memberCodec : Codec Member

/-! ## Stored committees -/

section Stored

variable {α : Type}

def epochCodec : Codec ScEpochNumber where
  encode epoch := littleEndian 8 epoch.toNat
  decode := andThen (readNumber 8) fun epoch => done (UInt64.ofNat epoch)
  reads epoch := by
    have hlt : epoch.toNat < 256 ^ 8 := epoch.toNat_lt
    have hread := (reads_readNumber hlt).map UInt64.ofNat
    rwa [UInt64.ofNat_toNat] at hread

/-- A vector that is longer than its bound is not read. -/
def committeeCodec (codec : Codec α) (bound : UInt32) : Codec (BoundedVec α bound.toNat) where
  encode xs := compact xs.toList.length ++ xs.toList.flatMap codec.encode
  decode := andThen readCompact fun length =>
    if length ≤ bound.toNat then
      andThen (readTimes codec.decode length) fun xs =>
        match BoundedVec.tryFrom bound.toNat xs with
        | some xs => done xs
        | none => fail
    else fail
  reads xs := by
    have hlength : xs.toList.length < 2 ^ 32 := xs.length_le.trans_lt bound.toNat_lt
    refine (reads_compact hlength).andThen ?_
    rw [if_pos xs.length_le]
    intro rest
    rw [andThen, reads_readTimes (fun x _ => codec.reads x) rest]
    simp only [Option.bind_some, BoundedVec.tryFrom_of_le xs.length_le]
    rfl

def infoCodec (codec : Codec α) (bound : UInt32) : Codec (CommitteeInfo α bound.toNat) where
  encode info := epochCodec.encode info.epoch ++
    (committeeCodec codec bound).encode info.committee
  decode := andThen epochCodec.decode fun epoch =>
    andThen (committeeCodec codec bound).decode fun committee => done ⟨epoch, committee⟩
  reads info := (epochCodec.reads info.epoch).andThen
    (((committeeCodec codec bound).reads info.committee).map (CommitteeInfo.mk info.epoch))

/-- The value of a type without a stored one. -/
def CommitteeInfo.default (maxValidators : ℕ) : CommitteeInfo α maxValidators :=
  ⟨0, [], Nat.zero_le maxValidators⟩

end Stored

/-- The cells of the committee in service and of the next one. -/
structure Cells where
  currentCommittee : Option (List UInt8)
  nextCommittee : Option (List UInt8)
  deriving DecidableEq

section Cells

variable {α : Type} (codec : Codec α) (bound : UInt32)

/-- A cell that is empty or cannot be read counts as absent. -/
def readCell (cell : Option (List UInt8)) : Option (CommitteeInfo α bound.toNat) :=
  cell.bind (infoCodec codec bound).decodeFirst

/-- The committees that a version of the pallet finds in the cells. -/
def readCells (cells : Cells) :
    CommitteeInfo α bound.toNat × Option (CommitteeInfo α bound.toNat) :=
  ((readCell codec bound cells.currentCommittee).getD (CommitteeInfo.default bound.toNat),
    readCell codec bound cells.nextCommittee)

end Cells

/-! ## The upgrade -/

variable {Member AuthorityId AuthorityKeys : Type}

/-- The database accesses that an upgrade is charged for. -/
structure DbWeight where
  reads : ℕ
  writes : ℕ
  deriving DecidableEq

variable (cfg : Config Member AuthorityId AuthorityKeys)

def migrateInfo (info : LegacyCommitteeInfo AuthorityId AuthorityKeys cfg.maxValidators.toNat) :
    CommitteeInfo Member cfg.maxValidators.toNat :=
  ⟨info.epoch, BoundedVec.truncateFrom _ (info.committee.toList.map cfg.memberFrom)⟩

def onRuntimeUpgrade (cells : Cells) :
    Cells × DbWeight :=
  let write info := (infoCodec cfg.memberCodec cfg.maxValidators).encode (migrateInfo cfg info)
  let (currentCommitteeV0, nextCommitteeV0) := readCells cfg.pairCodec cfg.maxValidators cells
  let upgraded := { cells with currentCommittee := some (write currentCommitteeV0) }
  match nextCommitteeV0 with
  | none => (upgraded, ⟨2, 1⟩)
  | some nextCommitteeV0 =>
      ({ upgraded with nextCommittee := some (write nextCommitteeV0) }, ⟨2, 2⟩)

/-- The state that is handed from before to after the upgrade. -/
def stateCodec :
    Codec (LegacyCommitteeInfo AuthorityId AuthorityKeys cfg.maxValidators.toNat ×
      Option (LegacyCommitteeInfo AuthorityId AuthorityKeys cfg.maxValidators.toNat)) :=
  (infoCodec cfg.pairCodec cfg.maxValidators).prod
    (infoCodec cfg.pairCodec cfg.maxValidators).option

def preUpgrade (cells : Cells) : List UInt8 :=
  (stateCodec cfg).encode (readCells cfg.pairCodec cfg.maxValidators cells)

def ensure (condition : Prop) [Decidable condition] (message : String) : Except String Unit :=
  if condition then .ok () else .error message

def pairs (members : List Member) :
    List (AuthorityId × AuthorityKeys) :=
  members.map fun member => (cfg.authorityId member, cfg.authorityKeys member)

variable [DecidableEq AuthorityId] [DecidableEq AuthorityKeys]

/-- The checks of `postUpgrade`, on what it has decoded and read. -/
def checkCommittees
    (v0 : LegacyCommitteeInfo AuthorityId AuthorityKeys cfg.maxValidators.toNat ×
      Option (LegacyCommitteeInfo AuthorityId AuthorityKeys cfg.maxValidators.toNat))
    (v1 : CommitteeInfo Member cfg.maxValidators.toNat ×
      Option (CommitteeInfo Member cfg.maxValidators.toNat)) : Except String Unit := do
  ensure (v0.1.epoch = v1.1.epoch) "current epoch should be preserved"
  ensure (v0.1.committee.toList = pairs cfg v1.1.committee.toList)
    "current committee membership should be preserved"
  -- the next committee of the first version is asked for twice
  if v0.2.isNone && v0.2.isNone then .ok ()
  else
    match v0.2, v1.2 with
    | none, _ => .error "V0 next committee should be Some if V1 is"
    | some _, none => .error "V1 next committee should be Some if V0 is"
    | some nextV0, some nextV1 => do
        ensure (nextV0.epoch = nextV1.epoch) "next epoch should be preserved"
        ensure (nextV0.committee.toList = pairs cfg nextV1.committee.toList)
          "next committee membership should be preserved"

def postUpgrade (state : List UInt8) (cells : Cells) : Except Panic (Except String Unit) :=
  match (stateCodec cfg).decodeFirst state with
  | none => .error ⟨"Previously encoded state should be decodable"⟩
  | some v0 => .ok (checkCommittees cfg v0 (readCells cfg.memberCodec cfg.maxValidators cells))

end PartnerChains.Committee.Migration
