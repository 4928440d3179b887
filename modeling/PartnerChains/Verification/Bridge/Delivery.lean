import PartnerChains.Verification.Bridge.Inherent
import PartnerChains.Verification.Bridge.Query

/-!
# Exactly-once delivery of bridge transfers

A call reads a page of the log of bridge UTXOs and stores the cursor for the next page, so
the run reads the log from the starting checkpoint on without gaps or repetitions.
-/

namespace PartnerChains.Bridge

open DbSync Relational Fallible

variable {Recipient : Type} {setup : Setup Recipient} {final db : Database}

/-! ## Checkpoints -/

theorem isAfter_of_le {checkpoint : BridgeDataCheckpoint} {x y : UtxoOrderingKey}
    (h : isAfter final checkpoint x = true) (hle : x ≤ y) :
    isAfter final checkpoint y = true := by
  unfold isAfter at *
  split
  · rename_i resolved hresolved
    rw [hresolved] at h
    exact resolved.isBefore_of_le h hle
  · rename_i hresolved
    simp [hresolved] at h

theorem resolveCheckpoint_utxo_eq_ok {utxo : UtxoId}
    {resolved : ResolvedBridgeDataCheckpoint} :
    resolveCheckpoint db (.utxo utxo) = .ok resolved ↔
      ∃ info, getBlockInfoForUtxo db utxo.txHash = .ok (some info) ∧
        resolved = .utxo info.blockNumber info.txIx utxo.index := by
  simp only [resolveCheckpoint]
  cases getBlockInfoForUtxo db utxo.txHash with
  | error error => simp [fromSqlx]
  | ok found => cases found <;> simp [fromSqlx, eq_comm]

theorem isBefore_utxo_eq_false {blockNumber txIx txOutIx : ℕ} {key : UtxoOrderingKey}
    (h : key.1 < blockNumber) :
    (ResolvedBridgeDataCheckpoint.utxo blockNumber txIx txOutIx).isBefore key = false := by
  have hle : ¬ UtxoOrderingKey.mk blockNumber txIx txOutIx < key := fun hlt =>
    absurd (UtxoOrderingKey.block_le hlt.le) (not_le_of_gt h)
  simpa [ResolvedBridgeDataCheckpoint.isBefore] using hle

/-- Up to the reference block, a checkpoint has the same meaning in the author's database
and in the final history. -/
theorem isBefore_eq_isAfter {number : McBlockNumber} (hfinal : setup.FinalUpTo db final number)
    {checkpoint : BridgeDataCheckpoint} {resolved : ResolvedBridgeDataCheckpoint}
    (hresolved : resolveCheckpoint db checkpoint = .ok resolved) {key : UtxoOrderingKey}
    (hkey : key.1 ≤ number) : resolved.isBefore key = isAfter final checkpoint key := by
  cases checkpoint with
  | block blockNumber =>
      obtain rfl : ResolvedBridgeDataCheckpoint.block blockNumber = resolved :=
        Except.ok.inj hresolved
      rfl
  | utxo utxo =>
      obtain ⟨info, hinfo, rfl⟩ := resolveCheckpoint_utxo_eq_ok.mp hresolved
      by_cases hle : info.blockNumber ≤ number
      · have hfound := resolveCheckpoint_utxo_eq_ok.mpr
          ⟨info, (hfinal.transactions _ _ hle).mp hinfo, rfl⟩
        simp [isAfter, hfound]
      · -- the transaction is beyond the reference block in both databases
        rw [isBefore_utxo_eq_false (by omega)]
        unfold isAfter
        split
        · rename_i resolved' hresolved'
          obtain ⟨info', hinfo', rfl⟩ := resolveCheckpoint_utxo_eq_ok.mp hresolved'
          have hbeyond : ¬ info'.blockNumber ≤ number := by
            intro hle'
            have hsame := (hfinal.transactions _ _ hle').mpr hinfo'
            rw [hinfo] at hsame
            obtain rfl : info = info' := by simpa using hsame
            exact hle hle'
          exact (isBefore_utxo_eq_false (by omega)).symm
        · rfl

/-! ## One call -/

section Call

variable {order : UtxoOrder} {hash : McBlockHash} {checkpoint : BridgeDataCheckpoint}
  {reference : McBlockNumber} {utxos : List BridgeUtxo}
  (h : readUtxos order setup.txInConfiguration db setup.scripts checkpoint setup.maxTransfers hash =
    .ok (reference, utxos))
include h

theorem readUtxos_eq_ok :
    ∃ resolved, resolveCheckpoint db checkpoint = .ok resolved ∧
      getBridgeUtxosTx order setup.txInConfiguration db
        setup.scripts.illiquidCirculationSupplyValidatorAddress
        ⟨setup.scripts.tokenPolicyId, setup.scripts.tokenAssetName⟩ resolved reference
        (some setup.maxTransfers.toNat) = .ok utxos := by
  unfold readUtxos at h
  obtain ⟨found, -, h⟩ := bind_eq_ok_iff.mp h
  cases found with
  | none => cases h
  | some block =>
      obtain ⟨resolved, hresolved, h⟩ := bind_eq_ok_iff.mp h
      obtain ⟨utxos', hutxos, h⟩ := bind_eq_ok_iff.mp h
      obtain ⟨rfl, rfl⟩ := Prod.mk.inj (Except.ok.inj h)
      exact ⟨resolved, hresolved, fromSqlx_eq_ok_iff.mp hutxos⟩

variable (hdb : Consistent db)
include hdb

/-- What a call reads, in terms of the final history: a page after its checkpoint. -/
theorem readUtxos_page (hfinal : setup.FinalUpTo db final reference) :
    utxos.map BridgeUtxo.orderingKey =
      Paging.page (setup.positions final) (isAfter final checkpoint) (·.1 ≤ reference)
        setup.maxTransfers.toNat := by
  obtain ⟨resolved, hresolved, hquery⟩ := readUtxos_eq_ok h
  rw [(hdb.getBridgeUtxosTx_spec hquery).1, Paging.page, Paging.page]
  have hsplit (log : List UtxoOrderingKey) (ahead : UtxoOrderingKey → Bool) :
      (log.filter fun key => decide (key.1 ≤ reference) && ahead key) =
        (log.filter fun key => decide (key.1 ≤ reference)).filter ahead := by
    rw [List.filter_filter]
    simp [Bool.and_comm]
  rw [hsplit, hsplit]
  change List.take _ (List.filter _ ((setup.positions db).filter _)) = _
  rw [hfinal.utxos]
  congr 1
  refine List.filter_congr fun key hkey => isBefore_eq_isAfter hfinal hresolved ?_
  simpa using (List.mem_filter.mp hkey).2

theorem readUtxos_length_le :
    utxos.length ≤ setup.maxTransfers.toNat := by
  obtain ⟨resolved, -, hquery⟩ := readUtxos_eq_ok h
  have hlength := congrArg List.length (hdb.getBridgeUtxosTx_spec hquery).1
  rw [List.length_map, Paging.page] at hlength
  rw [hlength]
  exact List.length_take_le _ _

/-- The UTXO of a full page is located at its own position in the final history. -/
theorem isAfter_utxoId (hfinal : setup.FinalUpTo db final reference) {utxo : BridgeUtxo}
    (hmem : utxo ∈ utxos) (hle : utxo.blockNumber ≤ reference) (key : UtxoOrderingKey) :
    isAfter final (.utxo utxo.utxoId) key = decide (utxo.orderingKey < key) := by
  obtain ⟨resolved, -, hquery⟩ := readUtxos_eq_ok h
  obtain ⟨row, hrow, hkey, hhash⟩ := (hdb.getBridgeUtxosTx_spec hquery).2 utxo hmem
  obtain ⟨hblock, hindex, -⟩ := UtxoOrderingKey.mk_inj.mp hkey
  have hfound := hdb.getBlockInfoForUtxo_of_mem hrow
  rw [← hblock, ← hindex, ← hhash] at hfound
  have hresolved := resolveCheckpoint_utxo_eq_ok.mpr
    ⟨_, (hfinal.transactions utxo.utxoId.txHash _ hle).mp hfound, rfl⟩
  rw [isAfter, hresolved]
  rfl

/-- The block of a call that succeeds hands over the transfers of the UTXOs that it read and
stores the new checkpoint. -/
theorem produceBlock_of_read {r : Runtime Recipient}
    (hscripts : r.storage.mainChainScriptsConfiguration = some setup.scripts)
    (hcheckpoint : r.storage.dataCheckpoint = some checkpoint) :
    produceBlock setup order db hash r =
      .ok { handled := r.handled ++ utxos.filterMap (utxoToTransfer setup.recipientTryFrom)
            storage := { r.storage with
              dataCheckpoint := some (newCheckpoint reference utxos setup.maxTransfers) } } := by
  have hlength : (utxos.filterMap (utxoToTransfer setup.recipientTryFrom)).length ≤
      setup.config.maxTransfersPerBlock.toNat :=
    (List.length_filterMap_le _ _).trans (readUtxos_length_le h hdb)
  have hprovider : newV1 setup.config r.storage hash
      (getTransfers setup.recipientTryFrom order setup.txInConfiguration db) =
      .ok (.activeV1 ⟨utxos.filterMap (utxoToTransfer setup.recipientTryFrom),
        newCheckpoint reference utxos setup.maxTransfers⟩) := by
    have hread : readUtxos order setup.txInConfiguration db setup.scripts checkpoint
      setup.config.maxTransfersPerBlock hash = .ok (reference, utxos) := h
    simp [newV1, hscripts, hcheckpoint, getTransfers, hread, Setup.maxTransfers]
  simp [produceBlock, hprovider, InherentDataProvider.provideInherentData, createInherent,
    decodeInherentData, BoundedVec.tryFrom_of_le hlength, dispatch_handleTransfers]

end Call

/-! ## The run -/

/-- The cursor of the run is the stored checkpoint. -/
structure Invariant (setup : Setup Recipient) (final : Database) (start : BridgeDataCheckpoint)
    (trace : List Event) (chain : Chain Recipient) : Prop where
  scripts : chain.runtime.storage.mainChainScriptsConfiguration = some setup.scripts
  progress : ∃ checkpoint, chain.runtime.storage.dataCheckpoint = some checkpoint ∧
    Paging.Progress (setup.positions final) (isAfter final start) (isAfter final checkpoint)
      (·.1 ≤ chain.reference) ((reads trace).map BridgeUtxo.orderingKey)
  handled : chain.runtime.handled =
    (reads trace).filterMap (utxoToTransfer setup.recipientTryFrom)
  limit : ∀ event ∈ trace, event.read.length ≤ setup.maxTransfers.toNat

section Run

variable {start : BridgeDataCheckpoint} {trace : List Event} {chain : Chain Recipient}

theorem newCheckpoint_of_short {reference : McBlockNumber} {utxos : List BridgeUtxo}
    {maxTransfers : UInt32} (h : utxos.length < maxTransfers.toNat) :
    newCheckpoint reference utxos maxTransfers = .block reference := by
  have hsmall : utxos.length % 2 ^ 32 = utxos.length :=
    Nat.mod_eq_of_lt (h.trans maxTransfers.toNat_lt)
  unfold newCheckpoint
  split
  · rfl
  · exact if_pos (hsmall.symm ▸ h)

theorem newCheckpoint_of_full {reference : McBlockNumber} {utxos : List BridgeUtxo}
    {maxTransfers : UInt32} {utxo : BridgeUtxo} (h : utxos.length = maxTransfers.toNat)
    (hlast : utxos.getLast? = some utxo) :
    newCheckpoint reference utxos maxTransfers = .utxo utxo.utxoId := by
  have hsmall : utxos.length % 2 ^ 32 = maxTransfers.toNat := by
    rw [h]
    exact Nat.mod_eq_of_lt maxTransfers.toNat_lt
  rw [newCheckpoint, hlast]
  exact if_neg hsmall.not_lt

/-- A successful call moves the cursor over the page that it read. -/
theorem progress_block {order : UtxoOrder}
    {hash : McBlockHash} {checkpoint : BridgeDataCheckpoint}
    {previous reference : McBlockNumber} {utxos : List BridgeUtxo}
    {keys : List UtxoOrderingKey} (hmax : 1 ≤ setup.maxTransfers.toNat)
    (hhistory : Consistent final) (hreference : previous ≤ reference) (hdb : Consistent db)
    (hfinal : setup.FinalUpTo db final reference)
    (h : readUtxos order setup.txInConfiguration db setup.scripts checkpoint
      setup.maxTransfers hash = .ok (reference, utxos))
    (hprogress : Paging.Progress (setup.positions final) (isAfter final start)
      (isAfter final checkpoint) (·.1 ≤ previous) keys) :
    Paging.Progress (setup.positions final) (isAfter final start)
      (isAfter final (newCheckpoint reference utxos setup.maxTransfers)) (·.1 ≤ reference)
      (keys ++ utxos.map BridgeUtxo.orderingKey) := by
  have hpage := readUtxos_page h hdb hfinal
  have hlength := readUtxos_length_le h hdb
  have hlog : (setup.positions final).Pairwise (· < ·) := hhistory.bridgePositions_increasing
  have hupper : ∀ x y, isAfter final checkpoint x = true → x ≤ y →
      isAfter final checkpoint y = true := fun _ _ => isAfter_of_le
  have hbound : ∀ x : UtxoOrderingKey, decide (x.1 ≤ previous) = true →
      decide (x.1 ≤ reference) = true := by
    intro x hx
    exact decide_eq_true ((of_decide_eq_true hx).trans hreference)
  have hpageLength : (Paging.page (setup.positions final) (isAfter final checkpoint)
      (·.1 ≤ reference) setup.maxTransfers.toNat).length = utxos.length := by
    rw [← hpage, List.length_map]
  rw [hpage]
  by_cases hlt : utxos.length < setup.maxTransfers.toNat
  · rw [newCheckpoint_of_short hlt]
    refine hprogress.short hlog hupper hbound (hpageLength ▸ hlt) fun key => ?_
    simp [isAfter, resolveCheckpoint, ResolvedBridgeDataCheckpoint.isBefore,
      ← decide_not, not_le]
  · have hfull : utxos.length = setup.maxTransfers.toNat := hlength.antisymm (not_lt.mp hlt)
    have hne : utxos ≠ [] := List.ne_nil_of_length_pos (hfull ▸ hmax)
    have hlast := List.getLast?_eq_some_getLast hne
    have hlastKey : (Paging.page (setup.positions final) (isAfter final checkpoint)
        (·.1 ≤ reference) setup.maxTransfers.toNat).getLast? =
        some (utxos.getLast hne).orderingKey := by
      rw [← hpage, List.getLast?_map, hlast, Option.map_some]
    have hle : (utxos.getLast hne).blockNumber ≤ reference :=
      of_decide_eq_true (Paging.mem_page (List.mem_of_getLast? hlastKey)).2.1
    rw [newCheckpoint_of_full hfull hlast]
    refine hprogress.full hlog hupper hbound ?_ hlastKey
      (isAfter_utxoId h hdb hfinal (List.getLast_mem hne) hle)
    intro x y hy hxy
    exact decide_eq_true ((UtxoOrderingKey.block_le hxy).trans (of_decide_eq_true hy))

theorem invariant_start :
    Invariant setup final start []
      (⟨0, ⟨some setup.scripts, some start⟩, []⟩ : Chain Recipient) where
  scripts := rfl
  progress := ⟨start, rfl, .begin _ _ _⟩
  handled := rfl
  limit := by simp

theorem Invariant.step (hmax : 1 ≤ setup.maxTransfers.toNat) (hhistory : Consistent final)
    (inv : Invariant setup final start trace chain) {event : Event}
    {chain' : Chain Recipient} (hstep : Step setup final chain event chain') :
    Invariant setup final start (trace ++ [event]) chain' := by
  cases hstep with
  | @block order db hash checkpoint reference utxos runtime hreference hdb hfinal hcheckpoint
      hread hproduce =>
      obtain ⟨checkpoint', hcheckpoint', hprogress⟩ := inv.progress
      obtain rfl : checkpoint = checkpoint' :=
        Option.some.inj (hcheckpoint.symm.trans hcheckpoint')
      rw [produceBlock_of_read hread hdb inv.scripts hcheckpoint] at hproduce
      obtain rfl := Except.ok.inj hproduce
      refine ⟨inv.scripts, ⟨_, rfl, ?_⟩, ?_, ?_⟩
      · rw [reads_append_singleton, List.map_append]
        exact progress_block hmax hhistory hreference hdb hfinal hread hprogress
      · simp [inv.handled, Event.read]
      · intro event hevent
        rcases List.mem_append.mp hevent with hold | hnew
        · exact inv.limit event hold
        · rw [List.mem_singleton.mp hnew]
          exact readUtxos_length_le hread hdb
  | failed _ =>
      refine ⟨inv.scripts, ?_, ?_, ?_⟩
      · simpa [Event.read] using inv.progress
      · simpa [Event.read] using inv.handled
      · intro event hevent
        rcases List.mem_append.mp hevent with hold | hnew
        · exact inv.limit event hold
        · rw [List.mem_singleton.mp hnew]
          exact Nat.zero_le _

theorem invariant_run (hmax : 1 ≤ setup.maxTransfers.toNat) (hhistory : Consistent final)
    (run : (system setup final start).Run trace chain) :
    Invariant setup final start trace chain := by
  refine run.invariant (P := Invariant setup final start) ?_ ?_
  · rintro _ rfl
    exact invariant_start
  · intro trace chain event chain' inv hstep
    exact inv.step hmax hhistory hstep

/-- Along every run from a checkpoint the bridge UTXOs are read in order and at most once,
never more than the limit per call. When the stored checkpoint is a block, all UTXOs after
the start up to that block have been read. What is handed over are the transfers of the
UTXOs read. -/
theorem bridge_utxos_read_exactly_once (setup : Setup Recipient) (final : Database)
    (start : BridgeDataCheckpoint) (hmax : 1 ≤ setup.maxTransfers.toNat)
    (hhistory : Consistent final) (run : (system setup final start).Run trace chain) :
    (∀ event ∈ trace, event.read.length ≤ setup.maxTransfers.toNat) ∧
      ((reads trace).map BridgeUtxo.orderingKey).Pairwise (· < ·) ∧
      (∀ key ∈ (reads trace).map BridgeUtxo.orderingKey,
        key ∈ setup.positions final ∧ key.1 ≤ chain.reference) ∧
      (∀ number, chain.runtime.storage.dataCheckpoint = some (.block number) →
        ∀ key ∈ setup.positions final, isAfter final start key = true → key.1 ≤ number →
          key ∈ (reads trace).map BridgeUtxo.orderingKey) ∧
      chain.runtime.handled =
        (reads trace).filterMap (utxoToTransfer setup.recipientTryFrom) := by
  have inv := invariant_run hmax hhistory run
  obtain ⟨checkpoint, hcheckpoint, hprogress⟩ := inv.progress
  refine ⟨inv.limit, hprogress.increasing, ?_, ?_, inv.handled⟩
  · intro key hkey
    simpa using hprogress.mem key hkey
  · intro number hnumber key hkey hstart hle
    obtain rfl : checkpoint = .block number :=
      Option.some.inj (hcheckpoint.symm.trans hnumber)
    refine hprogress.complete key hkey hstart ?_
    simpa [isAfter, resolveCheckpoint, ResolvedBridgeDataCheckpoint.isBefore] using hle

end Run

/-- Block 5 has two bridge UTXOs. -/
def sampleDatabase : Database where
  block := [⟨1, Bytes.filled 32 1, some 5, some 0, some 100, 2000⟩]
  tx := [⟨1, Bytes.filled 32 2, 1, 0⟩, ⟨2, Bytes.filled 32 3, 1, 1⟩]
  txOut := [⟨1, 1, 0, "addr", none, none⟩, ⟨2, 2, 0, "addr", none, none⟩]
  txIn := []
  maTxOut := [⟨30, 1, 1⟩, ⟨40, 2, 1⟩]
  multiAsset := [⟨1, Bytes.filled 28 3, []⟩]
  datum := []

def sampleSetup : Setup ℕ :=
  ⟨⟨1, fun _ => false⟩, fun _ => none, .consumed, ⟨Bytes.filled 28 3, [], "addr"⟩⟩

theorem sampleDatabase_consistent : Consistent sampleDatabase := by constructor <;> decide

theorem sample_step {chain : Chain ℕ} {checkpoint : BridgeDataCheckpoint} {utxos : List BridgeUtxo}
    (hreference : chain.reference ≤ 5)
    (hscripts : chain.runtime.storage.mainChainScriptsConfiguration = some sampleSetup.scripts)
    (hcheckpoint : chain.runtime.storage.dataCheckpoint = some checkpoint)
    (hread : readUtxos (Arrangement.stable _) sampleSetup.txInConfiguration sampleDatabase
      sampleSetup.scripts checkpoint sampleSetup.maxTransfers (Bytes.filled 32 1) =
        .ok (5, utxos)) :
    Step sampleSetup sampleDatabase chain (.block 5 utxos) ⟨5, { chain.runtime.storage with
      dataCheckpoint := some (newCheckpoint 5 utxos sampleSetup.maxTransfers) },
        chain.runtime.handled ++
          utxos.filterMap (utxoToTransfer sampleSetup.recipientTryFrom)⟩ :=
  have hproduce := produceBlock_of_read hread sampleDatabase_consistent hscripts hcheckpoint
  .block hreference sampleDatabase_consistent ⟨rfl, fun _ _ _ => Iff.rfl⟩ hcheckpoint hread hproduce

/-- With at most one transfer per block, the two UTXOs are read by two blocks with the same
reference, and a third one finds that there are no more. -/
theorem bridge_utxos_read_exactly_once_three_blocks :
    let first : BridgeUtxo := ⟨5, 0, Bytes.filled 32 2, 0, 30, 0, none⟩
    let second : BridgeUtxo := ⟨5, 1, Bytes.filled 32 3, 0, 40, 0, none⟩
    ∃ chain : Chain ℕ, (system sampleSetup sampleDatabase (.block 0)).Run
        [.block 5 [first], .block 5 [second], .block 5 []] chain ∧
      chain.runtime.handled = [.invalidTransfer 30 first.utxoId,
        .invalidTransfer 40 second.utxoId] ∧
      ∀ key ∈ sampleSetup.positions sampleDatabase,
        isAfter sampleDatabase (.block 0) key = true → key.1 ≤ 5 →
          key ∈ [first, second].map BridgeUtxo.orderingKey := by
  intro first second
  have run := System.Run.step (M := system sampleSetup sampleDatabase (.block 0)) (.start rfl)
    (@sample_step _ _ [first] (Nat.zero_le 5) rfl rfl (by decide +kernel))
  have run := run.step (@sample_step _ _ [second] le_rfl rfl rfl (by decide +kernel))
  have run := run.step (@sample_step _ _ [] le_rfl rfl rfl (by decide +kernel))
  exact ⟨_, run, rfl, (bridge_utxos_read_exactly_once sampleSetup sampleDatabase (.block 0)
    (by decide) sampleDatabase_consistent run).2.2.2.1 5 rfl⟩

end PartnerChains.Bridge
