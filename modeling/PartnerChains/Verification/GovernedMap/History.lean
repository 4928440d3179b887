import PartnerChains.Model.GovernedMapHistory

/-!
# The queries of the governed map see its outputs

A row of a change is the creation or the spending of an output, a row of the state is an
output that is live.
-/

namespace PartnerChains.DbSync

open Relational

variable {cfg : TxInConfiguration} {db : Database} {address : String} {asset : Asset}

/-! ## Outputs of the map -/

/-- The output is at the address, has the token and holds the datum. -/
def Tagged (db : Database) (address : String) (asset : Asset) (txOut : TxOutRow)
    (value : DatumValue) : Prop :=
  txOut ∈ db.txOut ∧ txOut.address = address ∧
    (∃ datum ∈ db.datum, txOut.dataHash = some datum.hash ∧ datum.value = value) ∧
    ∃ tokens ∈ db.maTxOut, txOut.id = tokens.txOutId ∧ ∃ multiAsset ∈ db.multiAsset,
      multiAsset.id = tokens.ident ∧ multiAsset.policy = asset.policyId ∧
        multiAsset.name = asset.assetName

/-- The output is created by a transaction at the position. -/
def CreatedAt (db : Database) (txOut : TxOutRow) (position : TxPosition) : Prop :=
  ∃ tx ∈ db.tx, txOut.txId = tx.id ∧ tx.At db position

theorem mem_mapOutputs {output : MapOutput} :
    output ∈ mapOutputs cfg db address asset ↔ ∃ txOut,
      Tagged db address asset txOut output.datum ∧ CreatedAt db txOut output.created ∧
        output.spent ∈ spendings cfg db txOut := by
  simp only [mapOutputs, List.bind_eq_flatMap, List.mem_flatMap, List.mem_filter,
    decide_eq_true_eq]
  constructor
  · rintro ⟨txOut, hout, tx, ⟨htx, htxId⟩, block, ⟨hblock, hblockId⟩, spent, hspent, datum,
      ⟨hdatum, hhash⟩, tokens, ⟨htokens, htokensId⟩, multiAsset, ⟨hasset, hassetId⟩, hrow⟩
    cases hno : block.blockNo with
    | none => simp [hno] at hrow
    | some blockNo =>
        simp only [hno] at hrow
        split_ifs at hrow with hcondition
        · obtain rfl := List.mem_singleton.mp hrow
          exact ⟨txOut, ⟨hout, hcondition.1, ⟨datum, hdatum, hhash, rfl⟩, tokens, htokens,
            htokensId, multiAsset, hasset, hassetId, hcondition.2⟩,
            ⟨tx, htx, htxId, block, hblock, hblockId, hno, rfl⟩, hspent⟩
        · simp at hrow
  · rintro ⟨txOut, ⟨hout, haddress, ⟨datum, hdatum, hhash, hvalue⟩, tokens, htokens,
      htokensId, multiAsset, hasset, hassetId, hpolicy⟩,
      ⟨tx, htx, htxId, block, hblock, hblockId, hno, hindex⟩, hspent⟩
    refine ⟨txOut, hout, tx, ⟨htx, htxId⟩, block, ⟨hblock, hblockId⟩, output.spent, hspent,
      datum, ⟨hdatum, hhash⟩, tokens, ⟨htokens, htokensId⟩, multiAsset, ⟨hasset, hassetId⟩, ?_⟩
    simp only [hno, if_pos (And.intro haddress hpolicy), List.mem_singleton]
    cases output
    simp only [hindex, hvalue] at *
    rfl

/-! ## Spending -/

variable {txOut : TxOutRow}

theorem isSpent_of_mem_consumingTx {isSpent : Bool} {tx : TxRow}
    (h : (isSpent, some tx) ∈ consumingTx cfg db txOut) :
    isSpent = true ∧ tx ∈ db.tx ∧ Spends cfg db txOut tx := by
  cases cfg with
  | enabled =>
      simp only [consumingTx, List.bind_eq_flatMap, List.mem_flatMap, List.mem_singleton] at h
      obtain ⟨txIn, htxIn, tx', htx', heq⟩ := h
      obtain ⟨rfl, rfl⟩ := Prod.mk.inj heq
      obtain ⟨htx, hany⟩ := some_mem_leftJoin.mp htx'
      cases txIn with
      | none => simp at hany
      | some txIn =>
          obtain ⟨hmem, hlink⟩ := some_mem_leftJoin.mp htxIn
          simp only [decide_eq_true_eq] at hlink
          exact ⟨rfl, htx, txIn, hmem, by simpa using hany, hlink⟩
  | consumed =>
      simp only [consumingTx, List.bind_eq_flatMap, List.mem_flatMap, List.mem_singleton] at h
      obtain ⟨tx', htx', heq⟩ := h
      obtain ⟨rfl, rfl⟩ := Prod.mk.inj heq
      obtain ⟨htx, hlink⟩ := some_mem_leftJoin.mp htx'
      simp only [decide_eq_true_eq] at hlink
      exact ⟨by simp [hlink], htx, hlink⟩

theorem Ledger.isSpent_eq_false (hdb : Ledger cfg db) (hout : txOut ∈ db.txOut) {isSpent : Bool}
    (h : (isSpent, none) ∈ consumingTx cfg db txOut) : isSpent = false := by
  cases cfg with
  | enabled =>
      simp only [consumingTx, List.bind_eq_flatMap, List.mem_flatMap, List.mem_singleton] at h
      obtain ⟨txIn, htxIn, tx', htx', heq⟩ := h
      obtain ⟨rfl, rfl⟩ := Prod.mk.inj heq
      cases txIn with
      | none => rfl
      | some txIn =>
          obtain ⟨tx, htx, hid⟩ := hdb.spenders txIn (some_mem_leftJoin.mp htxIn).1
          have hnone := none_mem_leftJoin.mp htx' tx htx
          simp [hid] at hnone
  | consumed =>
      simp only [consumingTx, List.bind_eq_flatMap, List.mem_flatMap, List.mem_singleton] at h
      obtain ⟨tx', htx', heq⟩ := h
      obtain ⟨rfl, rfl⟩ := Prod.mk.inj heq
      cases hid : txOut.consumedByTxId with
      | none => rfl
      | some id =>
          obtain ⟨tx, htx, rfl⟩ := hdb.spenders txOut hout id hid
          have hnone := none_mem_leftJoin.mp htx' tx htx
          simp [hid] at hnone

theorem some_mem_spendings {position : TxPosition} :
    some position ∈ spendings cfg db txOut ↔ ∃ isSpent tx block,
      (isSpent, some tx) ∈ consumingTx cfg db txOut ∧ block ∈ consumingBlock db (some tx) ∧
        block.bind (·.blockNo) = some position.1 ∧ tx.blockIndex = position.2 := by
  simp only [spendings, List.bind_eq_flatMap, List.mem_flatMap]
  constructor
  · rintro ⟨⟨isSpent, tx⟩, htx, block, hblock, hmem⟩
    cases tx with
    | none => simp at hmem
    | some tx =>
        cases hno : block.bind (·.blockNo) with
        | none => simp [hno] at hmem
        | some blockNo =>
            simp only [hno, List.mem_singleton, Option.some.injEq] at hmem
            subst hmem
            exact ⟨isSpent, tx, block, htx, hblock, hno, rfl⟩
  · rintro ⟨isSpent, tx, block, htx, hblock, hno, hindex⟩
    refine ⟨(isSpent, some tx), htx, block, hblock, ?_⟩
    simp only [hno, hindex, List.mem_singleton]
    rfl

theorem spendings_ne_nil (cfg : TxInConfiguration) (db : Database) (txOut : TxOutRow) :
    spendings cfg db txOut ≠ [] := by
  have hconsuming : consumingTx cfg db txOut ≠ [] := by
    cases cfg with
    | enabled =>
        obtain ⟨txIn, htxIn⟩ := List.exists_mem_of_ne_nil _ (leftJoin_ne_nil db.txIn fun txIn =>
          txOut.txId = txIn.txOutId ∧ txOut.index = txIn.txOutIndex)
        obtain ⟨tx, htx⟩ := List.exists_mem_of_ne_nil _ (leftJoin_ne_nil db.tx fun tx =>
          txIn.any fun txIn => txIn.txInId = tx.id)
        refine List.ne_nil_of_mem (a := (txIn.isSome, tx)) ?_
        simp only [consumingTx, List.bind_eq_flatMap, List.mem_flatMap]
        exact ⟨txIn, htxIn, tx, htx, by simp⟩
    | consumed =>
        obtain ⟨tx, htx⟩ := List.exists_mem_of_ne_nil _ (leftJoin_ne_nil db.tx fun tx =>
          txOut.consumedByTxId = some tx.id)
        refine List.ne_nil_of_mem (a := (txOut.consumedByTxId.isSome, tx)) ?_
        simp only [consumingTx, List.bind_eq_flatMap, List.mem_flatMap]
        exact ⟨tx, htx, by simp⟩
  obtain ⟨⟨isSpent, tx⟩, htx⟩ := List.exists_mem_of_ne_nil _ hconsuming
  obtain ⟨block, hblock⟩ := List.exists_mem_of_ne_nil _
    (leftJoin_ne_nil db.block fun block => tx.any fun tx => tx.blockId = block.id)
  intro hnil
  simp only [spendings, List.bind_eq_flatMap, List.flatMap_eq_nil_iff] at hnil
  have hempty := hnil (isSpent, tx) htx block hblock
  split at hempty <;> simp at hempty

theorem Ledger.created_lt_spent (hdb : Ledger cfg db) {output : MapOutput}
    (h : output ∈ mapOutputs cfg db address asset) {position : TxPosition}
    (hspent : output.spent = some position) : output.created < position := by
  obtain ⟨txOut, htagged, ⟨tx, htx, htxId, hat⟩, hmem⟩ := mem_mapOutputs.mp h
  rw [hspent] at hmem
  obtain ⟨isSpent, tx', block, hconsuming, hblock, hno, hindex⟩ := some_mem_spendings.mp hmem
  obtain ⟨-, htx', hspends⟩ := isSpent_of_mem_consumingTx hconsuming
  refine hdb.spent_later txOut htagged.1 tx htx tx' htx' htxId hspends _
    (TxRow.mem_positions.mpr hat) _ (TxRow.mem_positions.mpr ?_)
  cases block with
  | none => simp at hno
  | some block =>
      obtain ⟨hmem, hid⟩ := some_mem_leftJoin.mp hblock
      exact ⟨block, hmem, by simpa using hid, by simpa using hno, hindex⟩

/-! ## Rows of changes -/

theorem InRange.mono_block {since : Option ℕ} {upTo block block' : ℕ}
    (h : InRange since upTo block) (hle : block ≤ block') (hup : block' ≤ upTo) :
    InRange since upTo block' := by
  refine ⟨?_, hup⟩
  cases since with
  | none => rfl
  | some since => simpa using (of_decide_eq_true h.1).trans_le hle

theorem not_inRange {since : Option ℕ} {upTo block : ℕ} (hup : block ≤ upTo)
    (h : ¬ InRange since upTo block) : ∃ start, since = some start ∧ block ≤ start := by
  cases since with
  | none => exact absurd ⟨rfl, hup⟩ h
  | some start =>
      refine ⟨start, rfl, not_lt.mp fun hlt => h ⟨decide_eq_true hlt, hup⟩⟩

def DatumChangeRow.position (row : DatumChangeRow) : TxPosition :=
  toLex (row.blockNo, row.blockIndex)

variable {afterBlock : Option ℕ} {row : DatumChangeRow} {toBlock : ℕ}

theorem mem_createdRows :
    row ∈ createdRows db address afterBlock toBlock asset ↔
      InRange afterBlock toBlock row.blockNo ∧ row.action = .create ∧ ∃ txOut,
        Tagged db address asset txOut row.datum ∧ CreatedAt db txOut row.position := by
  simp only [createdRows, List.bind_eq_flatMap, List.mem_flatMap, List.mem_filter,
    decide_eq_true_eq]
  constructor
  · rintro ⟨txOut, hout, tx, ⟨htx, htxId⟩, block, ⟨hblock, hblockId⟩, datum, ⟨hdatum, hhash⟩,
      tokens, ⟨htokens, htokensId⟩, multiAsset, ⟨hasset, hassetId⟩, hrow⟩
    cases hno : block.blockNo with
    | none => simp [hno] at hrow
    | some blockNo =>
        simp only [hno] at hrow
        split_ifs at hrow with hcondition
        · obtain rfl := List.mem_singleton.mp hrow
          obtain ⟨haddress, hafter, hto, hpolicy⟩ := hcondition
          exact ⟨⟨hafter, hto⟩, rfl, txOut, ⟨hout, haddress, ⟨datum, hdatum, hhash, rfl⟩, tokens,
            htokens, htokensId, multiAsset, hasset, hassetId, hpolicy⟩,
            ⟨tx, htx, htxId, block, hblock, hblockId, hno, rfl⟩⟩
        · simp at hrow
  · rintro ⟨⟨hafter, hto⟩, haction, txOut, ⟨hout, haddress, ⟨datum, hdatum, hhash, hvalue⟩,
      tokens, htokens, htokensId, multiAsset, hasset, hassetId, hpolicy⟩,
      ⟨tx, htx, htxId, block, hblock, hblockId, hno, hindex⟩⟩
    refine ⟨txOut, hout, tx, ⟨htx, htxId⟩, block, ⟨hblock, hblockId⟩, datum, ⟨hdatum, hhash⟩,
      tokens, ⟨htokens, htokensId⟩, multiAsset, ⟨hasset, hassetId⟩, ?_⟩
    obtain ⟨value, blockNo, blockIndex, action⟩ := row
    simp only [DatumChangeRow.position] at hno hindex
    obtain rfl : action = .create := haction
    simp only [hno, hindex, hvalue]
    rw [if_pos ⟨haddress, hafter, hto, hpolicy⟩]
    exact List.mem_singleton_self _

theorem mem_spentRows :
    row ∈ spentRows cfg db address afterBlock toBlock asset ↔
      InRange afterBlock toBlock row.blockNo ∧ row.action = .spend ∧ ∃ txOut,
        Tagged db address asset txOut row.datum ∧
          some row.position ∈ spendings cfg db txOut := by
  simp only [spentRows, List.bind_eq_flatMap, List.mem_flatMap, List.mem_filter,
    decide_eq_true_eq, some_mem_spendings]
  constructor
  · rintro ⟨txOut, hout, ⟨isSpent, tx⟩, hconsuming, block, hblock, datum, ⟨hdatum, hhash⟩, tokens,
      ⟨htokens, htokensId⟩, multiAsset, ⟨hasset, hassetId⟩, hrow⟩
    cases tx with
    | none => simp at hrow
    | some tx =>
        cases hno : block.bind (·.blockNo) with
        | none => simp [hno] at hrow
        | some blockNo =>
            simp only [hno] at hrow
            split_ifs at hrow with hcondition
            · obtain rfl := List.mem_singleton.mp hrow
              obtain ⟨haddress, -, hafter, hto, hpolicy⟩ := hcondition
              exact ⟨⟨hafter, hto⟩, rfl, txOut, ⟨hout, haddress, ⟨datum, hdatum, hhash, rfl⟩,
                tokens, htokens, htokensId, multiAsset, hasset, hassetId, hpolicy⟩,
                isSpent, tx, block, hconsuming, hblock, hno, rfl⟩
            · simp at hrow
  · rintro ⟨⟨hafter, hto⟩, haction, txOut, ⟨hout, haddress, ⟨datum, hdatum, hhash, hvalue⟩,
      tokens, htokens, htokensId, multiAsset, hasset, hassetId, hpolicy⟩,
      isSpent, tx, block, hconsuming, hblock, hno, hindex⟩
    refine ⟨txOut, hout, (isSpent, some tx), hconsuming, block, hblock, datum, ⟨hdatum, hhash⟩,
      tokens, ⟨htokens, htokensId⟩, multiAsset, ⟨hasset, hassetId⟩, ?_⟩
    obtain ⟨value, blockNo, blockIndex, action⟩ := row
    simp only [DatumChangeRow.position] at hno hindex
    obtain rfl : action = .spend := haction
    simp only [hno, hindex, hvalue]
    have hspent := (isSpent_of_mem_consumingTx hconsuming).1
    rw [if_pos ⟨haddress, hspent, hafter, hto, hpolicy⟩]
    exact List.mem_singleton_self _

/-- A creation or a spending of an output of the map. -/
def Touches (cfg : TxInConfiguration) (db : Database) (address : String) (asset : Asset)
    (row : DatumChangeRow) : Prop :=
  ∃ txOut, Tagged db address asset txOut row.datum ∧
    match row.action with
    | .create => CreatedAt db txOut row.position
    | .spend => some row.position ∈ spendings cfg db txOut

theorem mem_governedMapChangeRows :
    row ∈ governedMapChangeRows cfg db address afterBlock toBlock asset ↔
      InRange afterBlock toBlock row.blockNo ∧ Touches cfg db address asset row := by
  rw [governedMapChangeRows, List.mem_dedup, List.mem_append, mem_createdRows, mem_spentRows]
  obtain ⟨value, blockNo, blockIndex, action⟩ := row
  cases action with
  | create => simp [Touches]
  | spend => simp [Touches]

/-! ## Rows and outputs -/

theorem Ledger.exists_createdAt (hdb : Ledger cfg db) (h : txOut ∈ db.txOut) :
    ∃ position, CreatedAt db txOut position := by
  obtain ⟨tx, htx, htxId⟩ := hdb.txOut_tx txOut h
  obtain ⟨block, hblock, hblockId⟩ := hdb.tx_block tx htx
  obtain ⟨blockNo, hno⟩ := Option.isSome_iff_exists.mp (hdb.block_no tx htx block hblock hblockId)
  exact ⟨toLex (blockNo, tx.blockIndex), tx, htx, htxId, block, hblock, hblockId, hno, rfl⟩

theorem Ledger.touches_iff (hdb : Ledger cfg db) :
    Touches cfg db address asset row ↔ ∃ output ∈ mapOutputs cfg db address asset,
      output.datum = row.datum ∧ output.ActedAt row.action row.position := by
  obtain ⟨value, blockNo, blockIndex, action⟩ := row
  cases action with
  | create =>
      constructor
      · rintro ⟨txOut, htagged, hcreated⟩
        obtain ⟨spent, hspent⟩ := List.exists_mem_of_ne_nil _ (spendings_ne_nil cfg db txOut)
        exact ⟨⟨value, _, spent⟩, mem_mapOutputs.mpr ⟨txOut, htagged, hcreated, hspent⟩, rfl, rfl⟩
      · rintro ⟨output, hmem, rfl, hcreated⟩
        obtain ⟨txOut, htagged, hat, -⟩ := mem_mapOutputs.mp hmem
        exact ⟨txOut, htagged, by rwa [← hcreated]⟩
  | spend =>
      constructor
      · rintro ⟨txOut, htagged, hspent⟩
        obtain ⟨created, hcreated⟩ := hdb.exists_createdAt htagged.1
        exact ⟨⟨value, created, some _⟩, mem_mapOutputs.mpr ⟨txOut, htagged, hcreated, hspent⟩,
          rfl, rfl⟩
      · rintro ⟨output, hmem, rfl, hspent⟩
        obtain ⟨txOut, htagged, -, hmem⟩ := mem_mapOutputs.mp hmem
        exact ⟨txOut, htagged, by rwa [← hspent]⟩

/-- A transaction of the history is joined to its numbered block. -/
theorem Ledger.exists_consumingBlock_no (hdb : Ledger cfg db) {tx : TxRow} (htx : tx ∈ db.tx)
    {block : Option BlockRow} (h : block ∈ consumingBlock db (some tx)) :
    ∃ blockNo, block.bind (·.blockNo) = some blockNo := by
  cases block with
  | none =>
      obtain ⟨block, hblock, hid⟩ := hdb.tx_block tx htx
      have hnone := none_mem_leftJoin.mp h block hblock
      simp [hid] at hnone
  | some block =>
      obtain ⟨hblock, hid⟩ := some_mem_leftJoin.mp h
      exact Option.isSome_iff_exists.mp (hdb.block_no tx htx block hblock (by simpa using hid))

/-- The condition of the query for the state says that the output is not spent yet. -/
theorem Ledger.exists_unspent_iff (hdb : Ledger cfg db) (hout : txOut ∈ db.txOut) {block : ℕ} :
    (∃ spent ∈ spendings cfg db txOut, ∀ position ∈ spent, block < position.1) ↔
      ∃ isSpent tx consuming, (isSpent, tx) ∈ consumingTx cfg db txOut ∧
        consuming ∈ consumingBlock db tx ∧
          (isSpent = false ∨ (consuming.bind (·.blockNo)).any (block < ·) = true) := by
  constructor
  · rintro ⟨spent, hspent, hlive⟩
    simp only [spendings, List.bind_eq_flatMap, List.mem_flatMap] at hspent
    obtain ⟨⟨isSpent, tx⟩, htx, consuming, hconsuming, hmem⟩ := hspent
    refine ⟨isSpent, tx, consuming, htx, hconsuming, ?_⟩
    cases tx with
    | none => exact .inl (hdb.isSpent_eq_false hout htx)
    | some tx =>
        obtain ⟨blockNo, hno⟩ :=
          hdb.exists_consumingBlock_no (isSpent_of_mem_consumingTx htx).2.1 hconsuming
        simp only [hno, List.mem_singleton] at hmem
        subst hmem
        rw [hno]
        exact .inr (decide_eq_true (hlive _ rfl))
  · rintro ⟨isSpent, tx, consuming, htx, hconsuming, hcondition⟩
    simp only [spendings, List.bind_eq_flatMap, List.mem_flatMap]
    cases tx with
    | none => exact ⟨none, ⟨(isSpent, none), htx, consuming, hconsuming, by simp⟩, by simp⟩
    | some tx =>
        obtain ⟨hspent, hmem, -⟩ := isSpent_of_mem_consumingTx htx
        obtain ⟨blockNo, hno⟩ := hdb.exists_consumingBlock_no hmem hconsuming
        refine ⟨some (toLex (blockNo, tx.blockIndex)),
          ⟨(isSpent, some tx), htx, consuming, hconsuming, by simp [hno]⟩, ?_⟩
        rintro _ ⟨⟩
        rw [hno] at hcondition
        rcases hcondition with hunspent | hlater
        · exact absurd (hspent.symm.trans hunspent) (by decide)
        · exact of_decide_eq_true hlater

theorem Ledger.mem_datumRowsAt (hdb : Ledger cfg db) {block : ℕ} {row : DatumAtRow} :
    row ∈ datumRowsAt cfg db address block asset ↔
      ∃ output ∈ mapOutputs cfg db address asset, output.LiveAt block ∧
        output.datum = row.datum ∧ output.created = row.orderKey := by
  constructor
  · intro hmem
    simp only [datumRowsAt, List.bind_eq_flatMap, List.mem_flatMap, List.mem_filter,
      decide_eq_true_eq] at hmem
    obtain ⟨txOut, hout, tx, ⟨htx, htxId⟩, origin, ⟨horigin, horiginId⟩, ⟨isSpent, spender⟩,
      hspender, consuming, hconsuming, datum, ⟨hdatum, hhash⟩, tokens, ⟨htokens, htokensId⟩,
      multiAsset, ⟨hasset, hassetId⟩, hrow⟩ := hmem
    cases hno : origin.blockNo with
    | none => simp [hno] at hrow
    | some blockNo =>
        simp only [hno] at hrow
        split_ifs at hrow with hcondition
        · obtain rfl := List.mem_singleton.mp hrow
          obtain ⟨haddress, hle, hunspent, hpolicy⟩ := hcondition
          obtain ⟨spent, hspent, hlater⟩ := (hdb.exists_unspent_iff hout).mpr
            ⟨isSpent, spender, consuming, hspender, hconsuming, hunspent⟩
          refine ⟨⟨datum.value, toLex (blockNo, tx.blockIndex), spent⟩,
            mem_mapOutputs.mpr ⟨txOut, ?_, ?_, hspent⟩, ⟨hle, hlater⟩, rfl, rfl⟩
          · exact ⟨hout, haddress, ⟨datum, hdatum, hhash, rfl⟩, tokens, htokens, htokensId,
              multiAsset, hasset, hassetId, hpolicy⟩
          · exact ⟨tx, htx, htxId, origin, horigin, horiginId, hno, rfl⟩
        · simp at hrow
  · rintro ⟨output, hmem, ⟨hle, hlater⟩, hvalue, hposition⟩
    obtain ⟨txOut, ⟨hout, haddress, ⟨datum, hdatum, hhash, hdatumValue⟩, tokens, htokens,
      htokensId, multiAsset, hasset, hassetId, hpolicy⟩,
      ⟨tx, htx, htxId, origin, horigin, horiginId, hno, hindex⟩, hspent⟩ := mem_mapOutputs.mp hmem
    obtain ⟨isSpent, spender, consuming, hspender, hconsuming, hunspent⟩ :=
      (hdb.exists_unspent_iff hout).mp ⟨_, hspent, hlater⟩
    simp only [datumRowsAt, List.bind_eq_flatMap, List.mem_flatMap, List.mem_filter,
      decide_eq_true_eq]
    refine ⟨txOut, hout, tx, ⟨htx, htxId⟩, origin, ⟨horigin, horiginId⟩, (isSpent, spender),
      hspender, consuming, hconsuming, datum, ⟨hdatum, hhash⟩, tokens, ⟨htokens, htokensId⟩,
      multiAsset, ⟨hasset, hassetId⟩, ?_⟩
    obtain ⟨value, blockNo, blockIndex⟩ := row
    rw [hposition] at hno hindex hle
    simp only [DatumAtRow.orderKey] at hno hindex hle
    simp only [hno, hindex, hdatumValue, hvalue]
    rw [if_pos ⟨haddress, hle, hunspent, hpolicy⟩]
    exact List.mem_singleton_self _

end PartnerChains.DbSync
