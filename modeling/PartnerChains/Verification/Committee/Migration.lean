import PartnerChains.Algorithm.CommitteeMigration

/-!
# The migrated committees

The upgrade keeps epochs, members and the absence of a next committee. The check after the upgrade
does not look at the upgraded next committee when there was none before.
-/

namespace PartnerChains.Committee.Migration

open Scale

variable {Member AuthorityId AuthorityKeys : Type}
  {cfg : Config Member AuthorityId AuthorityKeys}

/-- The committees that one version of the pallet reads, the one in service first. -/
abbrev Committees (Member : Type) (maxValidators : UInt32) :=
  CommitteeInfo Member maxValidators.toNat × Option (CommitteeInfo Member maxValidators.toNat)

/-! ## What a migration should do -/

/-- The same epoch, and the same members in the same order. -/
structure Preserves (cfg : Config Member AuthorityId AuthorityKeys)
    (old : LegacyCommitteeInfo AuthorityId AuthorityKeys cfg.maxValidators.toNat)
    (new : CommitteeInfo Member cfg.maxValidators.toNat) : Prop where
  epoch : old.epoch = new.epoch
  members : old.committee.toList = pairs cfg new.committee.toList

/-- Both committees are kept, and there is a next one exactly if there was one. -/
structure IsImage (cfg : Config Member AuthorityId AuthorityKeys)
    (v0 : Committees (AuthorityId × AuthorityKeys) cfg.maxValidators)
    (v1 : Committees Member cfg.maxValidators) : Prop where
  current : Preserves cfg v0.1 v1.1
  next : Option.Rel (Preserves cfg) v0.2 v1.2

/-- The cells that the first version of the pallet may leave behind. A committee in service that
was never stored is the default one. -/
structure StoresV0 (cfg : Config Member AuthorityId AuthorityKeys) (cells : Cells)
    (v0 : Committees (AuthorityId × AuthorityKeys) cfg.maxValidators) : Prop where
  current : cells.currentCommittee =
      some ((infoCodec cfg.pairCodec cfg.maxValidators).encode v0.1) ∨
    cells.currentCommittee = none ∧ v0.1 = CommitteeInfo.default cfg.maxValidators.toNat
  next : cells.nextCommittee = v0.2.map (infoCodec cfg.pairCodec cfg.maxValidators).encode

/-! ## Reading the cells -/

section Cells

variable {α : Type} {codec : Codec α} {bound : UInt32}

@[simp]
theorem readCell_none : readCell codec bound none = none := rfl

@[simp]
theorem readCell_encode (info : CommitteeInfo α bound.toNat) :
    readCell codec bound (some ((infoCodec codec bound).encode info)) = some info :=
  Codec.decodeFirst_encode _ info

theorem readCell_map_encode (info : Option (CommitteeInfo α bound.toNat)) :
    readCell codec bound (info.map (infoCodec codec bound).encode) = info := by
  cases info with
  | none => rfl
  | some info => exact readCell_encode info

end Cells

variable {v0 : Committees (AuthorityId × AuthorityKeys) cfg.maxValidators}

theorem StoresV0.readCells_eq {cells : Cells} (stored : StoresV0 cfg cells v0) :
    readCells cfg.pairCodec cfg.maxValidators cells = v0 := by
  have hcurrent : (readCell cfg.pairCodec cfg.maxValidators cells.currentCommittee).getD
      (CommitteeInfo.default cfg.maxValidators.toNat) = v0.1 := by
    rcases stored.current with hcell | ⟨hcell, hdefault⟩
    · rw [hcell, readCell_encode]
      rfl
    · rw [hcell, hdefault]
      rfl
  rw [readCells, hcurrent, stored.next, readCell_map_encode]

/-! ## The upgrade -/

theorem preserves_migrateInfo
    (info : LegacyCommitteeInfo AuthorityId AuthorityKeys cfg.maxValidators.toNat) :
    Preserves cfg info (migrateInfo cfg info) := by
  -- the new vector has the bound of the old one, so that nothing is cut off
  have hlength : (info.committee.toList.map cfg.memberFrom).length ≤ cfg.maxValidators.toNat := by
    rw [List.length_map]
    exact info.committee.length_le
  refine ⟨rfl, ?_⟩
  simp only [migrateInfo, BoundedVec.truncateFrom, List.take_of_length_le hlength, pairs,
    List.map_map]
  conv_lhs => rw [← List.map_id info.committee.toList]
  refine List.map_congr_left fun pair _ => Prod.ext ?_ ?_
  · exact (cfg.authorityId_memberFrom pair).symm
  · exact (cfg.authorityKeys_memberFrom pair).symm

theorem StoresV0.isImage_onRuntimeUpgrade {cells : Cells} (stored : StoresV0 cfg cells v0) :
    IsImage cfg v0
      (readCells cfg.memberCodec cfg.maxValidators (onRuntimeUpgrade cfg cells).1) := by
  obtain ⟨current, next⟩ := v0
  simp only [onRuntimeUpgrade, stored.readCells_eq]
  cases next with
  | none =>
      have hcell : cells.nextCommittee = none := stored.next
      refine ⟨?_, ?_⟩
      · simpa [readCells] using preserves_migrateInfo current
      · simp [readCells, hcell]
  | some next =>
      refine ⟨?_, ?_⟩
      · simpa [readCells] using preserves_migrateInfo current
      · simpa [readCells] using Option.Rel.some (preserves_migrateInfo next)

/-! ## The check after the upgrade -/

theorem ensure_eq_ok_iff {condition : Prop} [Decidable condition] {message : String} :
    ensure condition message = .ok () ↔ condition := by
  rw [ensure]
  split <;> simp [*]

theorem ensure_bind_eq_ok_iff {condition : Prop} [Decidable condition] {message : String}
    {rest : Except String Unit} :
    (ensure condition message >>= fun _ => rest) = .ok () ↔ condition ∧ rest = .ok () := by
  rw [Fallible.bind_eq_ok_iff]
  constructor
  · rintro ⟨_, hensure, hrest⟩
    exact ⟨ensure_eq_ok_iff.mp hensure, hrest⟩
  · rintro ⟨hcondition, hrest⟩
    exact ⟨(), ensure_eq_ok_iff.mpr hcondition, hrest⟩

variable [DecidableEq AuthorityId] [DecidableEq AuthorityKeys]

theorem checkCommittees_eq_ok_iff {v1 : Committees Member cfg.maxValidators} :
    checkCommittees cfg v0 v1 = .ok () ↔
      Preserves cfg v0.1 v1.1 ∧ (v0.2 = none ∨ Option.Rel (Preserves cfg) v0.2 v1.2) := by
  obtain ⟨current, next⟩ := v0
  obtain ⟨current', next'⟩ := v1
  rw [checkCommittees, ensure_bind_eq_ok_iff, ensure_bind_eq_ok_iff, ← and_assoc]
  refine and_congr ⟨fun h => ⟨h.1, h.2⟩, fun h => ⟨h.epoch, h.members⟩⟩ ?_
  cases next with
  | none => simp
  | some next =>
      cases next' with
      | none => simp
      | some next' =>
          simp only [Option.isNone_some, Bool.and_self, Bool.false_eq_true, if_false,
            ensure_bind_eq_ok_iff, ensure_eq_ok_iff, reduceCtorEq, false_or,
            Option.rel_some_some]
          exact ⟨fun h => ⟨h.1, h.2⟩, fun h => ⟨h.epoch, h.members⟩⟩

theorem postUpgrade_eq_ok_iff {cells upgraded : Cells} (stored : StoresV0 cfg cells v0) :
    postUpgrade cfg (preUpgrade cfg cells) upgraded = .ok (.ok ()) ↔
      checkCommittees cfg v0 (readCells cfg.memberCodec cfg.maxValidators upgraded) = .ok () := by
  rw [postUpgrade, preUpgrade, Codec.decodeFirst_encode, stored.readCells_eq, Except.ok.injEq]

/-- The upgrade makes the image of what was stored. The check accepts that image and nothing else,
except that without a stored next committee it accepts any next committee. -/
theorem migration_checked_iff {cells : Cells}
    {v0 : Committees (AuthorityId × AuthorityKeys) cfg.maxValidators}
    (stored : StoresV0 cfg cells v0) (upgraded : Cells) :
    (IsImage cfg v0
        (readCells cfg.memberCodec cfg.maxValidators (onRuntimeUpgrade cfg cells).1) ∧
      (postUpgrade cfg (preUpgrade cfg cells) upgraded = .ok (.ok ()) ↔
        IsImage cfg v0 (readCells cfg.memberCodec cfg.maxValidators upgraded))) ↔
      (v0.2.isSome ∨ (readCells cfg.memberCodec cfg.maxValidators upgraded).2 = none ∨
        ¬ Preserves cfg v0.1 (readCells cfg.memberCodec cfg.maxValidators upgraded).1) := by
  rw [and_iff_right stored.isImage_onRuntimeUpgrade, postUpgrade_eq_ok_iff stored,
    checkCommittees_eq_ok_iff]
  generalize readCells cfg.memberCodec cfg.maxValidators upgraded = v1
  obtain ⟨current, next⟩ := v0
  obtain ⟨current', next'⟩ := v1
  have himage : IsImage cfg (current, next) (current', next') ↔
      Preserves cfg current current' ∧ Option.Rel (Preserves cfg) next next' :=
    ⟨fun h => ⟨h.current, h.next⟩, fun h => ⟨h.1, h.2⟩⟩
  rw [himage]
  cases next with
  | some next => simp
  | none =>
      cases next' with
      | none => simp
      | some next' => simp

def byteCodec : Codec UInt8 where
  encode byte := [byte]
  decode
    | [] => none
    | byte :: rest => some (byte, rest)
  reads _ _ := rfl

/-- Authorities and keys of one byte each. A member is written with its keys first. -/
def byteConfig : Config (UInt8 × UInt8) UInt8 UInt8 where
  maxValidators := 4
  memberFrom pair := (pair.2, pair.1)
  authorityId member := member.2
  authorityKeys member := member.1
  authorityId_memberFrom _ := rfl
  authorityKeys_memberFrom _ := rfl
  pairCodec := byteCodec.prod byteCodec
  memberCodec := byteCodec.prod byteCodec

def byteCommittee (epoch : ScEpochNumber) (first second : UInt8 × UInt8) :
    CommitteeInfo (UInt8 × UInt8) byteConfig.maxValidators.toNat :=
  ⟨epoch, [first, second], (by decide : 2 ≤ 4)⟩

/-- A committee of two members, and the next one. -/
def withNext (next : Option (CommitteeInfo (UInt8 × UInt8) byteConfig.maxValidators.toNat)) :
    Cells :=
  ⟨some ((infoCodec byteConfig.pairCodec byteConfig.maxValidators).encode
    (byteCommittee 5 (1, 2) (3, 4))),
    next.map (infoCodec byteConfig.pairCodec byteConfig.maxValidators).encode⟩

/-- Both committees are made anew. The upgraded cells pass the check, and the old ones do not. -/
theorem migration_checked_iff_two_committees :
    let cells := withNext (some (byteCommittee 6 (3, 4) (1, 2)))
    readCells byteConfig.memberCodec byteConfig.maxValidators
        (onRuntimeUpgrade byteConfig cells).1 =
          (byteCommittee 5 (2, 1) (4, 3), some (byteCommittee 6 (4, 3) (2, 1))) ∧
      postUpgrade byteConfig (preUpgrade byteConfig cells) (onRuntimeUpgrade byteConfig cells).1 =
        .ok (.ok ()) ∧
      postUpgrade byteConfig (preUpgrade byteConfig cells) cells ≠ .ok (.ok ()) := by
  intro cells
  have stored : StoresV0 byteConfig cells (byteCommittee 5 (1, 2) (3, 4),
      some (byteCommittee 6 (3, 4) (1, 2))) := ⟨.inl rfl, rfl⟩
  obtain ⟨himage, hiff⟩ := (migration_checked_iff stored (onRuntimeUpgrade byteConfig cells).1).mpr
    (.inl rfl)
  refine ⟨by decide, hiff.mpr himage, fun h => ?_⟩
  have hmembers := (((migration_checked_iff stored cells).mpr (.inl rfl)).2.mp h).current.members
  revert hmembers
  decide

/-- The cells after an upgrade that made up a next committee. -/
def withInventedNext : Cells :=
  { (onRuntimeUpgrade byteConfig (withNext none)).1 with
    nextCommittee := some ((infoCodec byteConfig.memberCodec byteConfig.maxValidators).encode
      (byteCommittee 6 (9, 9) (9, 9))) }

theorem invented_next_committee_accepted :
    StoresV0 byteConfig (withNext none) (byteCommittee 5 (1, 2) (3, 4), none) ∧
      postUpgrade byteConfig (preUpgrade byteConfig (withNext none)) withInventedNext =
        .ok (.ok ()) ∧
      ¬ IsImage byteConfig (byteCommittee 5 (1, 2) (3, 4), none)
        (readCells byteConfig.memberCodec byteConfig.maxValidators withInventedNext) := by
  refine ⟨⟨.inl rfl, rfl⟩, by decide, fun h => ?_⟩
  have hnext : (readCells byteConfig.memberCodec byteConfig.maxValidators withInventedNext).2 =
      some (byteCommittee 6 (9, 9) (9, 9)) := by decide
  have hrel := h.next
  rw [hnext] at hrel
  cases hrel

end PartnerChains.Committee.Migration
