import PartnerChains.Verification.GovernedMap.Queries

/-!
# Replaying the changes of the governed map

The changes are creations and spendings of outputs, the state is read from the outputs that
are unspent. The two views agree when spending an output does not hide another one that
still holds its key.
-/

namespace PartnerChains.DbSync

/-! ## The history of a key -/

theorem TxPosition.block_le_of_le {position position' : TxPosition}
    (h : position ≤ position') : position.1 ≤ position'.1 := by
  rcases Prod.Lex.le_iff.mp h with hlt | ⟨heq, -⟩
  · exact Nat.le_of_lt hlt
  · exact Nat.le_of_eq heq

theorem TxPosition.lt_of_block_lt {position position' : TxPosition}
    (h : position.1 < position'.1) : position < position' :=
  Prod.Lex.lt_iff.mpr (.inl h)

section Abstract

variable {outputs : List MapOutput} {since : Option ℕ} {upTo : ℕ} {key : String}
variable {block : ℕ}

theorem StateAt.exists_isNewest {state : Option ByteString} (h : StateAt outputs block key state)
    {live : MapOutput} (hmem : live ∈ outputs) (hlive : live.LiveAt block)
    (hholds : live.Holds key) :
    ∃ value, ∃ output : MapOutput, state = some value ∧ output.IsNewest outputs block key ∧
      output.Stores key value := by
  cases state with
  | none => exact absurd hholds (h live hmem hlive)
  | some value =>
      obtain ⟨output, hnewest, hstores⟩ := h
      exact ⟨value, output, rfl, hnewest, hstores⟩

variable {output : MapOutput}

/-- An output that is newest determines the state. -/
theorem Unambiguous.state_eq (hunambiguous : Unambiguous outputs block) {state : Option ByteString}
    (h : StateAt outputs block key state) (hnewest : output.IsNewest outputs block key)
    {value : ByteString} (hstores : output.Stores key value) : state = some value := by
  obtain ⟨value', other, rfl, hother, hstores'⟩ :=
    h.exists_isNewest hnewest.mem hnewest.live hnewest.holds
  have hentry := hunambiguous key output other hnewest hother
  rw [hstores, hstores'] at hentry
  cases hentry
  rfl

/-- The last change of a key, when it is a creation, makes the newest output. -/
theorem IsLastChange.isNewest
    (hlater : ∀ output ∈ outputs, ∀ position, output.spent = some position →
      output.created < position) {position : TxPosition}
    (h : IsLastChange outputs since upTo key output .create position) :
    output.IsNewest outputs upTo key := by
  have hcreated : output.created = position := h.acted
  refine ⟨h.mem, ⟨?_, fun spent hspent => ?_⟩, h.holds, fun other hmem hlive hholds => ?_⟩
  · rw [hcreated]
    exact h.inRange.2
  · by_contra hnot
    have hlt := hlater output h.mem spent hspent
    rw [hcreated] at hlt
    have hrange := h.inRange.mono_block (TxPosition.block_le_of_le hlt.le) (not_lt.mp hnot)
    rcases h.last output h.mem h.holds .spend spent hspent hrange with hbefore | ⟨heq, -⟩
    · exact lt_asymm hlt hbefore
    · exact hlt.ne' heq
  · rw [hcreated]
    by_cases hrange : InRange since upTo other.created.1
    · rcases h.last other hmem hholds .create _ rfl hrange with hbefore | ⟨heq, -⟩
      · exact hbefore.le
      · exact heq.le
    · obtain ⟨start, rfl, hstart⟩ := not_inRange hlive.1 hrange
      refine (TxPosition.lt_of_block_lt (hstart.trans_lt ?_)).le
      exact of_decide_eq_true h.inRange.1

/-- Without a change of the key in the range the same outputs are live before and after. -/
theorem liveAt_iff_of_no_change (hle : ∀ start ∈ since, start ≤ upTo)
    (h : ChangeIn outputs since upTo key none) (hmem : output ∈ outputs)
    (hholds : output.Holds key) :
    output.LiveAt upTo ↔ ∃ start, since = some start ∧ output.LiveAt start := by
  constructor
  · rintro ⟨hcreated, hspent⟩
    obtain ⟨start, rfl, hstart⟩ := not_inRange hcreated (h output hmem hholds .create _ rfl)
    exact ⟨start, rfl, hstart, fun position hposition =>
      (hle start rfl).trans_lt (hspent position hposition)⟩
  · rintro ⟨start, rfl, hcreated, hspent⟩
    refine ⟨hcreated.trans (hle start rfl), fun position hposition => ?_⟩
    by_contra hnot
    exact h output hmem hholds .spend position hposition
      ⟨decide_eq_true (hspent position hposition), not_lt.mp hnot⟩

theorem state_eq_of_no_change (hle : ∀ start ∈ since, start ≤ upTo)
    (hunambiguous : Unambiguous outputs upTo) {before after : Option ByteString}
    (hchange : ChangeIn outputs since upTo key none) (hbefore : StartsAt outputs since key before)
    (hafter : StateAt outputs upTo key after) : before = after := by
  have hlive {output : MapOutput} (hmem : output ∈ outputs) (hholds : output.Holds key) :=
    liveAt_iff_of_no_change hle hchange hmem hholds
  cases since with
  | none =>
      cases after with
      | none => exact hbefore
      | some value =>
          obtain ⟨output, hnewest, -⟩ := hafter
          obtain ⟨_, hnone, -⟩ := (hlive hnewest.mem hnewest.holds).mp hnewest.live
          cases hnone
  | some start =>
      have hlive' {output : MapOutput} (hmem : output ∈ outputs) (hholds : output.Holds key) :
          output.LiveAt upTo ↔ output.LiveAt start := by
        simpa using hlive hmem hholds
      cases before with
      | none =>
          cases after with
          | none => rfl
          | some value =>
              obtain ⟨output, hnewest, -⟩ := hafter
              have hstart := (hlive' hnewest.mem hnewest.holds).mp hnewest.live
              exact absurd hnewest.holds (hbefore output hnewest.mem hstart)
      | some value =>
          obtain ⟨output, hnewest, hstores⟩ := hbefore
          have hnewest' : output.IsNewest outputs upTo key := by
            refine ⟨hnewest.mem, (hlive' hnewest.mem hnewest.holds).mpr hnewest.live,
              hnewest.holds, fun other hmem hother hholds => ?_⟩
            exact hnewest.newest other hmem ((hlive' hmem hholds).mp hother) hholds
          exact (hunambiguous.state_eq hafter hnewest' hstores).symm

/-- The changes in the range lead from the state before to the state after. -/
theorem replays_of_renewed (hle : ∀ start ∈ since, start ≤ upTo)
    (hlater : ∀ output ∈ outputs, ∀ position, output.spent = some position →
      output.created < position)
    (hrenewed : Renewed outputs since upTo) (hunambiguous : Unambiguous outputs upTo)
    {change : Option (Option ByteString)} {before after : Option ByteString}
    (hchange : ChangeIn outputs since upTo key change) (hbefore : StartsAt outputs since key before)
    (hafter : StateAt outputs upTo key after) : change.getD before = after := by
  match change with
  | none => exact state_eq_of_no_change hle hunambiguous hchange hbefore hafter
  | some none =>
      obtain ⟨output, position, hlast⟩ := hchange
      cases after with
      | none => rfl
      | some value =>
          obtain ⟨live, hnewest, -⟩ := hafter
          obtain ⟨renewal, hmem, hholds, hposition, hup⟩ := hrenewed key output hlast.mem
            hlast.holds position hlast.acted hlast.inRange live hnewest.mem hnewest.holds
            hnewest.live
          have hrange := hlast.inRange.mono_block (TxPosition.block_le_of_le hposition) hup
          rcases hlast.last renewal hmem hholds .create _ rfl hrange with hbefore | ⟨-, horder⟩
          · exact absurd hbefore (not_lt.mpr hposition)
          · exact absurd horder (by decide)
  | some (some value) =>
      obtain ⟨output, position, hlast, hstores⟩ := hchange
      exact (hunambiguous.state_eq hafter (hlast.isNewest hlater) hstores).symm

/-- When a spent output hides a live one, its key is lost. -/
theorem renewed_of_replays
    (h : ∀ key, ∃ change before after, ChangeIn outputs since upTo key change ∧
      StateAt outputs upTo key after ∧ change.getD before = after) :
    Renewed outputs since upTo := by
  intro key output hmem hholds position hspent hrange live hlive hliveHolds hliveAt
  obtain ⟨change, before, after, hchange, hafter, heq⟩ := h key
  obtain ⟨value, _, rfl, -⟩ := hafter.exists_isNewest hlive hliveAt hliveHolds
  match change with
  | none => exact absurd hrange (hchange output hmem hholds .spend position hspent)
  | some none => cases heq
  | some (some _) =>
      obtain ⟨renewal, position', hlast, -⟩ := hchange
      refine ⟨renewal, hlast.mem, hlast.holds, ?_, ?_⟩
      · have hcreated : renewal.created = position' := hlast.acted
        rw [hcreated]
        rcases hlast.last output hmem hholds .spend position hspent hrange with hlt | ⟨heq, -⟩
        · exact hlt.le
        · exact heq.le
      · have hcreated : renewal.created = position' := hlast.acted
        rw [hcreated]
        exact hlast.inRange.2

/-- When several values of a key are newest, none of them is the state. -/
theorem unambiguous_of_replays
    (h : ∀ key state state', StateAt outputs block key state → StateAt outputs block key state' →
      state = state') : Unambiguous outputs block := by
  intro key output other houtput hother
  obtain ⟨value, hstores⟩ := houtput.holds
  obtain ⟨value', hstores'⟩ := hother.holds
  obtain rfl := Option.some.inj (h key (some value) (some value') ⟨output, houtput, hstores⟩
    ⟨other, hother, hstores'⟩)
  rw [hstores, hstores']

end Abstract

/-! ## Rows that write to a key -/

theorem DatumAtRow.any_write_iff {row : DatumAtRow} {key : String} :
    row.write.any (·.1 = key) = true ↔ ∃ value, row.datum.entry = some ⟨key, value⟩ := by
  cases hentry : row.datum.entry with
  | none => simp [write, hentry]
  | some entry =>
      obtain ⟨key', value⟩ := entry
      simp [write, hentry]

def MapOutput.stateRow (output : MapOutput) : DatumAtRow :=
  ⟨output.datum, output.created.1, output.created.2⟩

theorem MapOutput.any_write_stateRow_iff {output : MapOutput} {key : String} :
    output.stateRow.write.any (·.1 = key) = true ↔ output.Holds key :=
  DatumAtRow.any_write_iff

theorem DatumChangeRow.any_write_iff {row : DatumChangeRow} {key : String} :
    row.write.any (·.1 = key) = true ↔ ∃ value, row.datum.entry = some ⟨key, value⟩ := by
  cases hentry : row.datum.entry with
  | none => simp [write, hentry]
  | some entry =>
      obtain ⟨key', value⟩ := entry
      simp [write, hentry]

def MapOutput.changeRow (output : MapOutput) (action : GovernedMapAction)
    (position : TxPosition) : DatumChangeRow :=
  ⟨output.datum, position.1, position.2, action⟩

theorem MapOutput.any_write_changeRow_iff {output : MapOutput} {action : GovernedMapAction}
    {position : TxPosition} {key : String} :
    (output.changeRow action position).write.any (·.1 = key) = true ↔ output.Holds key :=
  DatumChangeRow.any_write_iff

theorem DatumChangeRow.orderKey_le_iff {row row' : DatumChangeRow} :
    row.orderKey ≤ row'.orderKey ↔ row.position < row'.position ∨
      row.position = row'.position ∧ row.action.order ≤ row'.action.order := by
  obtain ⟨value, blockNo, blockIndex, action⟩ := row
  obtain ⟨value', blockNo', blockIndex', action'⟩ := row'
  simp only [orderKey, position, Prod.Lex.toLex_le_toLex, Prod.Lex.toLex_lt_toLex,
    EmbeddingLike.apply_eq_iff_eq, Prod.mk.injEq]
  omega

end PartnerChains.DbSync

namespace PartnerChains.GovernedMap

open DbSync Relational LastWrite Fallible

variable {cfg : TxInConfiguration} {db : Database} {scripts : MainChainScriptsV1}

/-! ## The queries read the history -/

def scriptOutputs (cfg : TxInConfiguration) (db : Database) (scripts : MainChainScriptsV1) :
    List MapOutput :=
  mapOutputs cfg db scripts.validatorAddress (Asset.new scripts.assetPolicyId)

def stateMap (order : Arrangement DatumAtRow.orderKey) (cfg : TxInConfiguration) (db : Database)
    (scripts : MainChainScriptsV1) (block : ℕ) : Mappings :=
  replay ((order.arrange (stateRows cfg db scripts block)).filterMap DatumAtRow.write) ∅

theorem stateMap_getElem? (order : Arrangement DatumAtRow.orderKey) (block : ℕ) (key : String) :
    (stateMap order cfg db scripts block)[key]? =
      ((order.arrange (stateRows cfg db scripts block)).filter fun row =>
        row.write.any (·.1 = key)).getLast?.bind fun row => row.datum.entry.map (·.value) := by
  rw [stateMap, getElem?_replay, lastWrite_filterMap]
  cases ((order.arrange (stateRows cfg db scripts block)).filter fun row =>
      row.write.any (·.1 = key)).getLast? with
  | none => simp
  | some row => cases hentry : row.datum.entry <;> simp [DatumAtRow.write, hentry]

theorem stateRow_mem_stateRows (hdb : Ledger cfg db) {block : ℕ} {output : MapOutput}
    (hmem : output ∈ scriptOutputs cfg db scripts) (hlive : output.LiveAt block) :
    output.stateRow ∈ stateRows cfg db scripts block :=
  hdb.mem_datumRowsAt.mpr ⟨output, hmem, hlive, rfl, rfl⟩

theorem stateMap_stateAt (hdb : Ledger cfg db) (order : Arrangement DatumAtRow.orderKey)
    (block : ℕ) (key : String) :
    StateAt (scriptOutputs cfg db scripts) block key
      (stateMap order cfg db scripts block)[key]? := by
  rw [stateMap_getElem?]
  cases hlast : ((order.arrange (stateRows cfg db scripts block)).filter fun row =>
      row.write.any (·.1 = key)).getLast? with
  | none =>
      intro output hmem hlive hholds
      have hnone := order.getLast?_filter_eq_none.mp hlast _ (stateRow_mem_stateRows hdb hmem hlive)
      rw [MapOutput.any_write_stateRow_iff.mpr hholds] at hnone
      cases hnone
  | some row =>
      obtain ⟨hrow, hkey, hmax⟩ := order.getLast?_filter_spec hlast
      obtain ⟨value, hentry⟩ := DatumAtRow.any_write_iff.mp hkey
      obtain ⟨output, hmem, hlive, hdatum, hcreated⟩ := hdb.mem_datumRowsAt.mp hrow
      have hstores : output.Stores key value := by rwa [MapOutput.Stores, hdatum]
      simp only [Option.bind_some, hentry, Option.map_some]
      refine ⟨output, ⟨hmem, hlive, ⟨value, hstores⟩, fun other hother hotherLive hholds => ?_⟩,
        hstores⟩
      rw [hcreated]
      exact hmax _ (stateRow_mem_stateRows hdb hother hotherLive)
        (MapOutput.any_write_stateRow_iff.mpr hholds)

theorem exists_stateMap_eq (hdb : Ledger cfg db) {block : ℕ} {key : String}
    {state : Option ByteString} (h : StateAt (scriptOutputs cfg db scripts) block key state) :
    ∃ order, (stateMap order cfg db scripts block)[key]? = state := by
  cases state with
  | none =>
      refine ⟨Arrangement.stable _, ?_⟩
      have hstable : StateAt (scriptOutputs cfg db scripts) block key _ :=
        stateMap_stateAt hdb (Arrangement.stable _) block key
      cases hget : (stateMap (Arrangement.stable _) cfg db scripts block)[key]? with
      | none => rfl
      | some value =>
          rw [hget] at hstable
          obtain ⟨output, hnewest, -⟩ := hstable
          exact absurd hnewest.holds (h output hnewest.mem hnewest.live)
  | some value =>
      obtain ⟨output, hnewest, hstores⟩ := h
      have hmax : ∀ other ∈ stateRows cfg db scripts block, other.write.any (·.1 = key) = true →
          other.orderKey ≤ output.stateRow.orderKey := by
        intro other hother hkey
        obtain ⟨value', hentry⟩ := DatumAtRow.any_write_iff.mp hkey
        obtain ⟨source, hmem, hlive, hdatum, hcreated⟩ := hdb.mem_datumRowsAt.mp hother
        rw [← hcreated]
        exact hnewest.newest source hmem hlive ⟨value', by rwa [MapOutput.Stores, hdatum]⟩
      obtain ⟨order, horder⟩ := Arrangement.exists_getLast?_filter
        (stateRow_mem_stateRows hdb hnewest.mem hnewest.live)
        (MapOutput.any_write_stateRow_iff.mpr hnewest.holds) hmax
      refine ⟨order, ?_⟩
      have hentry : output.stateRow.datum.entry = some ⟨key, value⟩ := hstores
      rw [stateMap_getElem?, horder, Option.bind_some, hentry, Option.map_some]

theorem changeRow_mem_changeRows (hdb : Ledger cfg db) {since : Option ℕ} {upTo : ℕ}
    {output : MapOutput} (hmem : output ∈ scriptOutputs cfg db scripts)
    {action : GovernedMapAction} {position : TxPosition} (hacted : output.ActedAt action position)
    (hrange : InRange since upTo position.1) :
    output.changeRow action position ∈ changeRows cfg db scripts since upTo :=
  mem_changeRows.mpr ⟨hrange, hdb.touches_iff.mpr ⟨output, hmem, rfl, hacted⟩⟩

/-- The last write to a key among the changes is its last change in the history. -/
theorem lastWrite_changeIn (hdb : Ledger cfg db) (order : Arrangement DatumChangeRow.orderKey)
    {since : Option ℕ} {upTo maxSearch : ℕ} (hsearch : upTo ≤ maxSearch) (key : String) :
    ChangeIn (scriptOutputs cfg db scripts) since upTo key
      (lastWrite (changeWrites order cfg db scripts since upTo maxSearch) key) := by
  have hwrites {output : MapOutput} (hholds : output.Holds key) {action : GovernedMapAction}
      {position : TxPosition} (hrange : InRange since upTo position.1) :
      ((output.changeRow action position).write.any (·.1 = key) &&
        decide (InRange since upTo position.1)) = true := by
    rw [MapOutput.any_write_changeRow_iff.mpr hholds, decide_eq_true hrange, Bool.and_true]
  rw [changeWrites, lastWrite_filterMap, List.filter_filter]
  cases hlast : ((order.arrange (changeRows cfg db scripts since maxSearch)).filter fun row =>
      row.write.any (·.1 = key) && decide (InRange since upTo row.blockNo)).getLast? with
  | none =>
      intro output hmem hholds action position hacted hrange
      have hnone := order.getLast?_filter_eq_none.mp hlast _ (changeRow_mem_changeRows hdb hmem
        hacted ⟨hrange.1, hrange.2.trans hsearch⟩)
      exact absurd ((hwrites hholds hrange).symm.trans hnone) (by decide)
  | some row =>
      obtain ⟨hrow, hkey, hmax⟩ := order.getLast?_filter_spec hlast
      obtain ⟨hwrite, hrange⟩ := Bool.and_eq_true_iff.mp hkey
      obtain ⟨value, hentry⟩ := DatumChangeRow.any_write_iff.mp hwrite
      obtain ⟨output, hmem, hdatum, hacted⟩ :=
        hdb.touches_iff.mp (mem_changeRows.mp hrow).2
      have hstores : output.Stores key value := by rwa [MapOutput.Stores, hdatum]
      have hlastChange : IsLastChange (scriptOutputs cfg db scripts) since upTo key output
          row.action row.position := by
        refine ⟨hmem, ⟨value, hstores⟩, hacted, of_decide_eq_true hrange, ?_⟩
        intro other hother hholds action position hactedOther hrangeOther
        exact DatumChangeRow.orderKey_le_iff.mp (hmax _ (changeRow_mem_changeRows hdb hother
          hactedOther ⟨hrangeOther.1, hrangeOther.2.trans hsearch⟩) (hwrites hholds hrangeOther))
      rw [Option.bind_some, DatumChangeRow.write, hentry]
      cases haction : row.action with
      | spend =>
          rw [haction] at hlastChange
          exact ⟨output, _, hlastChange⟩
      | create =>
          rw [haction] at hlastChange
          exact ⟨output, _, hlastChange, hstores⟩

/-! ## What can be read -/

/-- An output acts between its creation and its spending. -/
theorem acted_bounds (hdb : Ledger cfg db) {output : MapOutput}
    (hmem : output ∈ scriptOutputs cfg db scripts) {action : GovernedMapAction}
    {position : TxPosition} (hacted : output.ActedAt action position) :
    output.created ≤ position ∧ ∀ spent ∈ output.spent, position ≤ spent := by
  cases action with
  | create =>
      obtain rfl : output.created = position := hacted
      exact ⟨le_rfl, fun spent hspent => (hdb.created_lt_spent hmem hspent).le⟩
  | spend =>
      have hspent : output.spent = some position := hacted
      refine ⟨(hdb.created_lt_spent hmem hspent).le, fun spent hspent' => ?_⟩
      exact (Option.some.inj (hspent.symm.trans hspent')).le

theorem readable_iff (hdb : Ledger cfg db) {since : Option ℕ} {upTo maxSearch : ℕ}
    (hle : ∀ start ∈ since, start ≤ upTo) (hsearch : upTo ≤ maxSearch) :
    ReadableHistory (scriptOutputs cfg db scripts) since maxSearch ↔
      (∀ row ∈ changeRows cfg db scripts since maxSearch, row.datum.Readable) ∧
        (∀ start ∈ since, ∀ row ∈ stateRows cfg db scripts start, row.datum.Readable) ∧
          ∀ row ∈ stateRows cfg db scripts upTo, row.datum.Readable := by
  constructor
  · intro h
    refine ⟨fun row hrow => ?_, fun start hstart row hrow => ?_, fun row hrow => ?_⟩
    · obtain ⟨hrange, htouches⟩ := mem_changeRows.mp hrow
      obtain ⟨output, hmem, hdatum, hacted⟩ := hdb.touches_iff.mp htouches
      obtain ⟨hcreated, hspent⟩ := acted_bounds hdb hmem hacted
      rw [← hdatum]
      refine h output hmem ((TxPosition.block_le_of_le hcreated).trans hrange.2) ?_
      rintro start rfl position hposition
      exact (of_decide_eq_true hrange.1).trans_le
        (TxPosition.block_le_of_le (hspent position hposition))
    · obtain ⟨output, hmem, hlive, hdatum, -⟩ := hdb.mem_datumRowsAt.mp hrow
      rw [← hdatum]
      refine h output hmem (hlive.1.trans ((hle start hstart).trans hsearch)) ?_
      intro start' hstart' position hposition
      obtain rfl : start = start' := Option.some.inj (hstart.symm.trans hstart')
      exact hlive.2 position hposition
    · obtain ⟨output, hmem, hlive, hdatum, -⟩ := hdb.mem_datumRowsAt.mp hrow
      rw [← hdatum]
      refine h output hmem (hlive.1.trans hsearch) fun start hstart position hposition => ?_
      exact (hle start hstart).trans_lt (hlive.2 position hposition)
  · rintro ⟨hchanges, hbefore, -⟩ output hmem hcreated hspent
    by_cases hrange : InRange since maxSearch output.created.1
    · have hacted : output.ActedAt .create output.created := rfl
      exact hchanges _ (changeRow_mem_changeRows hdb hmem hacted hrange)
    · obtain ⟨start, rfl, hstart⟩ := not_inRange hcreated hrange
      exact hbefore start rfl _ (stateRow_mem_stateRows hdb hmem ⟨hstart, hspent start rfl⟩)

/-! ## The calls -/

theorem resolveRange_eq_ok {blocks : BlockDataSource db} {sinceHash : Option McBlockHash}
    {upToHash : McBlockHash} {since : Option ℕ} {upTo : ℕ}
    (h : resolveRange blocks sinceHash upToHash = .ok (since, upTo)) :
    (match sinceHash with
      | none => since = none
      | some hash => ∃ block, getBlockByHash db hash = .ok (some block) ∧
          since = some block.blockNo) ∧
      ∃ block, getBlockByHash db upToHash = .ok (some block) ∧ upTo = block.blockNo := by
  rw [resolveRange] at h
  obtain ⟨since', hsince, h⟩ := bind_eq_ok_iff.mp h
  obtain ⟨block, hblock, h⟩ := bind_eq_ok_iff.mp h
  cases block with
  | none => cases h
  | some block =>
      obtain ⟨rfl, rfl⟩ := Prod.mk.inj (Except.ok.inj h)
      constructor
      · cases sinceHash with
        | none => exact (Except.ok.inj hsince).symm
        | some hash =>
            obtain ⟨found, hfound, hsince⟩ := bind_eq_ok_iff.mp hsince
            cases found with
            | none => cases hsince
            | some found =>
                exact ⟨found, mapError_eq_ok_iff.mp hfound, (Except.ok.inj hsince).symm⟩
      · rw [blocks.getBlockByHash_eq, mapError_eq_ok_iff] at hblock
        cases hfound : getBlockByHash db upToHash with
        | error error => simp [hfound, Except.map] at hblock
        | ok found =>
            cases found with
            | none => simp [hfound, Except.map] at hblock
            | some found =>
                rw [hfound] at hblock
                obtain rfl := Option.some.inj (Except.ok.inj hblock)
                exact ⟨found, rfl, rfl⟩

/-- The state that the changes are applied to: nothing when they begin at the start. -/
def startingState (order : Arrangement DatumAtRow.orderKey) (db : Database)
    (cfg : TxInConfiguration) (scripts : MainChainScriptsV1) :
    Option McBlockHash → Except SourceError Mappings
  | none => .ok ∅
  | some hash => getMappingsEntries order db hash scripts cfg

/-- The map that the changes are applied to. -/
def startingMap (order : Arrangement DatumAtRow.orderKey) (cfg : TxInConfiguration)
    (db : Database) (scripts : MainChainScriptsV1) : Option ℕ → Mappings
  | none => ∅
  | some block => stateMap order cfg db scripts block

theorem startingMap_startsAt (hdb : Ledger cfg db) (order : Arrangement DatumAtRow.orderKey)
    (since : Option ℕ) (key : String) :
    StartsAt (scriptOutputs cfg db scripts) since key
      (startingMap order cfg db scripts since)[key]? := by
  cases since with
  | none => exact Std.ExtTreeMap.getElem?_empty
  | some block => exact stateMap_stateAt hdb order block key

section Call

variable {blocks : BlockDataSource db} {sinceHash : Option McBlockHash} {upToHash : McBlockHash}
  {since : Option ℕ} {upTo : ℕ}
  (hrange : resolveRange blocks sinceHash upToHash = .ok (since, upTo))

include hrange

theorem startingState_eq_ok_iff {order : Arrangement DatumAtRow.orderKey} {before : Mappings} :
    startingState order db cfg scripts sinceHash = .ok before ↔
      (∀ start ∈ since, ∀ row ∈ stateRows cfg db scripts start, row.datum.Readable) ∧
        before = startingMap order cfg db scripts since := by
  have hsince := (resolveRange_eq_ok hrange).1
  cases sinceHash with
  | none =>
      obtain rfl : since = none := hsince
      simp [startingState, startingMap, eq_comm]
  | some hash =>
      obtain ⟨block, hblock, rfl⟩ := hsince
      simp only [startingState, getMappingsEntries_eq_ok_iff hblock, Option.mem_some_iff,
        forall_eq', startingMap, stateMap]

theorem stateAtUpTo_eq_ok_iff {order : Arrangement DatumAtRow.orderKey} {after : Mappings} :
    getMappingsEntries order db upToHash scripts cfg = .ok after ↔
      (∀ row ∈ stateRows cfg db scripts upTo, row.datum.Readable) ∧
        after = stateMap order cfg db scripts upTo := by
  obtain ⟨block, hblock, rfl⟩ := (resolveRange_eq_ok hrange).2
  exact getMappingsEntries_eq_ok_iff hblock

end Call

/-! ## Replay -/

theorem le_maxSearchBlock {cacheSize : UInt16} {stable upTo : ℕ} {since : Option ℕ}
    (h : upTo ≤ stable) : upTo ≤ maxSearchBlock cacheSize stable since upTo :=
  le_min h (le_max_left _ _)

/-- The changes that a call returns on a cache miss, applied to the state at `since`, give
the state at `upTo`, in whatever order the database puts rows with equal sort keys. This is
so exactly when the data can be read, no spent output of a key hides one that still holds
the key, and the newest outputs of a key agree. -/
theorem changes_replay_iff_renewed (hdb : Ledger cfg db) (cacheSize : UInt16)
    (blocks : BlockDataSource db) (scripts : MainChainScriptsV1) (cache : Cache)
    {sinceHash : Option McBlockHash} {upToHash : McBlockHash} {since : Option ℕ}
    {upTo stable : ℕ} (hrange : resolveRange blocks sinceHash upToHash = .ok (since, upTo))
    (hle : ∀ start ∈ since, start ≤ upTo)
    (hmiss : (cache.setMainChainScripts scripts).getChangesInRange since upTo = none)
    (hlatest : latestStableBlockNumber blocks upTo = .ok stable) (hstable : upTo ≤ stable) :
    (∀ order orderSince orderUpTo, ∃ changes before after,
      (getMappingChangesCached cacheSize order cfg blocks sinceHash upToHash scripts cache).1 =
          .ok changes ∧
        startingState orderSince db cfg scripts sinceHash = .ok before ∧
        getMappingsEntries orderUpTo db upToHash scripts cfg = .ok after ∧
        replay changes before = after) ↔
      ReadableHistory (scriptOutputs cfg db scripts) since
          (maxSearchBlock cacheSize stable since upTo) ∧
        Renewed (scriptOutputs cfg db scripts) since upTo ∧
          Unambiguous (scriptOutputs cfg db scripts) upTo := by
  have hsearch : upTo ≤ maxSearchBlock cacheSize stable since upTo := le_maxSearchBlock hstable
  simp only [getMappingChangesCached_miss hrange hmiss hlatest, startingState_eq_ok_iff hrange,
    stateAtUpTo_eq_ok_iff hrange, readable_iff hdb hle hsearch]
  constructor
  · intro h
    obtain ⟨_, _, _, ⟨hchanges, -⟩, ⟨hbefore, -⟩, ⟨hafter, -⟩, -⟩ :=
      h (Arrangement.stable _) (Arrangement.stable _) (Arrangement.stable _)
    have hreplay (orderUpTo : Arrangement DatumAtRow.orderKey) (key : String) :
        (lastWrite (changeWrites (Arrangement.stable _) cfg db scripts since upTo
          (maxSearchBlock cacheSize stable since upTo)) key).getD
            (startingMap (Arrangement.stable _) cfg db scripts since)[key]? =
              (stateMap orderUpTo cfg db scripts upTo)[key]? := by
      obtain ⟨_, _, _, ⟨-, rfl⟩, ⟨-, rfl⟩, ⟨-, rfl⟩, heq⟩ :=
        h (Arrangement.stable _) (Arrangement.stable _) orderUpTo
      rw [← heq, getElem?_replay]
    refine ⟨⟨hchanges, hbefore, hafter⟩, renewed_of_replays fun key => ?_,
      unambiguous_of_replays fun key state state' hstate hstate' => ?_⟩
    · exact ⟨_, _, _, lastWrite_changeIn hdb (Arrangement.stable _) hsearch key,
        stateMap_stateAt hdb (Arrangement.stable _) upTo key, hreplay (Arrangement.stable _) key⟩
    · obtain ⟨orderUpTo, rfl⟩ := exists_stateMap_eq hdb hstate
      obtain ⟨orderUpTo', rfl⟩ := exists_stateMap_eq hdb hstate'
      exact (hreplay orderUpTo key).symm.trans (hreplay orderUpTo' key)
  · rintro ⟨⟨hchanges, hbefore, hafter⟩, hrenewed, hunambiguous⟩ order orderSince orderUpTo
    refine ⟨_, _, _, ⟨hchanges, rfl⟩, ⟨hbefore, rfl⟩, ⟨hafter, rfl⟩, ?_⟩
    refine Std.ExtTreeMap.ext_getElem? fun key => ?_
    rw [getElem?_replay]
    exact replays_of_renewed hle (fun output hmem position => hdb.created_lt_spent hmem) hrenewed
      hunambiguous (lastWrite_changeIn hdb order hsearch key)
      (startingMap_startsAt hdb orderSince since key) (stateMap_stateAt hdb orderUpTo upTo key)

/-! ### Two histories -/

def replayScripts : MainChainScriptsV1 := ⟨"addr", .filled 28 3⟩

/-- Block 6 replaces the entry of block 5: one transaction spends its output and makes a
new one. -/
def renewedDatabase : Database where
  block := [⟨1, .filled 32 5, some 5, some 1, some 50, 500⟩,
    ⟨2, .filled 32 6, some 6, some 1, some 60, 600⟩]
  tx := [⟨1, .filled 32 11, 1, 0⟩, ⟨2, .filled 32 12, 2, 0⟩]
  txOut := [⟨1, 1, 0, "addr", some (.filled 32 7), some 2⟩,
    ⟨2, 2, 0, "addr", some (.filled 32 8), none⟩]
  txIn := []
  maTxOut := [⟨1, 1, 1⟩, ⟨1, 2, 1⟩]
  multiAsset := [⟨1, .filled 28 3, []⟩]
  datum := [⟨.filled 32 7, .data (.list [.bytes [107], .bytes [7]])⟩,
    ⟨.filled 32 8, .data (.list [.bytes [107], .bytes [8]])⟩]

/-- An entry that is replaced is replayed. -/
theorem changes_replay_iff_renewed_replacement :
    Ledger .consumed renewedDatabase ∧ ∀ order orderSince orderUpTo, ∃ changes before after,
      (getMappingChangesCached 100 order .consumed
        (stableBlocks renewedDatabase ⟨6, .filled 32 6, 1, 60, 600⟩) (some (.filled 32 5))
        (.filled 32 6) replayScripts {}).1 = .ok changes ∧
      startingState orderSince renewedDatabase .consumed replayScripts (some (.filled 32 5)) =
        .ok before ∧
      getMappingsEntries orderUpTo renewedDatabase (.filled 32 6) replayScripts .consumed =
        .ok after ∧ replay changes before = after := by
  have hledger : Ledger .consumed renewedDatabase := by constructor <;> decide
  have houtputs : scriptOutputs .consumed renewedDatabase replayScripts =
      [⟨.data (.list [.bytes [107], .bytes [7]]), toLex (5, 0), some (toLex (6, 0))⟩,
        ⟨.data (.list [.bytes [107], .bytes [8]]), toLex (6, 0), none⟩] := by decide
  have hrange : resolveRange (stableBlocks renewedDatabase ⟨6, .filled 32 6, 1, 60, 600⟩)
      (some (.filled 32 5)) (.filled 32 6) = .ok (some 5, 6) := rfl
  have hlatest : latestStableBlockNumber
      (stableBlocks renewedDatabase ⟨6, .filled 32 6, 1, 60, 600⟩) 6 = .ok 6 := rfl
  refine ⟨hledger, (changes_replay_iff_renewed hledger 100 _ replayScripts {} hrange (by decide)
    rfl hlatest le_rfl).mpr ?_⟩
  rw [houtputs]
  -- the output of block 5 is spent in block 6, so only the other one is live there
  have hlive {live : MapOutput} (hmem : live ∈ [
      ⟨.data (.list [.bytes [107], .bytes [7]]), toLex (5, 0), some (toLex (6, 0))⟩,
      ⟨.data (.list [.bytes [107], .bytes [8]]), toLex (6, 0), none⟩]) (h : live.LiveAt 6) :
      live = ⟨.data (.list [.bytes [107], .bytes [8]]), toLex (6, 0), none⟩ := by
    rcases List.mem_pair.mp hmem with rfl | rfl
    · exact absurd (h.2 _ rfl) (lt_irrefl 6)
    · rfl
  refine ⟨?_, ?_, ?_⟩
  · intro output hmem _ _
    rcases List.mem_pair.mp hmem with rfl | rfl
    · decide
    · decide
  · intro key output hmem _ position hspent _ live hliveMem hholds hliveAt
    obtain rfl := hlive hliveMem hliveAt
    refine ⟨_, hliveMem, hholds, ?_, le_rfl⟩
    rcases List.mem_pair.mp hmem with rfl | rfl
    · exact (Option.some.inj hspent).ge
    · cases hspent
  · intro key output other houtput hother
    rw [hlive houtput.mem houtput.live, hlive hother.mem hother.live]

/-- Block 5 makes two outputs with the same key, block 6 spends the newer one. -/
def sharedKeyDatabase : Database :=
  { renewedDatabase with
    tx := [⟨1, .filled 32 11, 1, 0⟩, ⟨2, .filled 32 12, 1, 1⟩, ⟨3, .filled 32 13, 2, 0⟩]
    txOut := [⟨1, 1, 0, "addr", some (.filled 32 7), none⟩,
      ⟨2, 2, 0, "addr", some (.filled 32 8), some 3⟩] }

/-- The key is lost: an output of block 5 still holds it, but the last change removes it. -/
theorem changes_lose_shared_key :
    Ledger .consumed sharedKeyDatabase ∧
      resolveRange (stableBlocks sharedKeyDatabase ⟨6, .filled 32 6, 1, 60, 600⟩)
        (some (.filled 32 5)) (.filled 32 6) = .ok (some 5, 6) ∧
      (getMappingChangesCached 100 (Arrangement.stable _) .consumed
        (stableBlocks sharedKeyDatabase ⟨6, .filled 32 6, 1, 60, 600⟩) (some (.filled 32 5))
        (.filled 32 6) replayScripts {}).1 = .ok [("k", none)] ∧
      getMappingsEntries (Arrangement.stable _) sharedKeyDatabase (.filled 32 5) replayScripts
        .consumed = .ok ((∅ : Mappings).insert "k" [8]) ∧
      getMappingsEntries (Arrangement.stable _) sharedKeyDatabase (.filled 32 6) replayScripts
        .consumed = .ok ((∅ : Mappings).insert "k" [7]) ∧
      replay [("k", none)] ((∅ : Mappings).insert "k" [8]) ≠ (∅ : Mappings).insert "k" [7] := by
  have hledger : Ledger .consumed sharedKeyDatabase := by constructor <;> decide
  refine ⟨hledger, rfl, rfl, rfl, rfl, fun heq => ?_⟩
  have hkey := congrArg (·["k"]?) heq
  simp [replay, write] at hkey

end PartnerChains.GovernedMap
