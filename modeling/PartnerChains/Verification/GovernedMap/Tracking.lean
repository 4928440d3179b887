import PartnerChains.Verification.GovernedMap.Inherent

/-!
# The pallet tracks the main chain

An initialized pallet holds the state at the last reference. Each block replays the
difference to the state at the new reference, so the copy stays equal to the original.
-/

namespace PartnerChains.GovernedMap

open DbSync LastWrite

variable {setup : Setup} {chain : Chain setup.config}

/-- An initialized pallet holds the state at the last reference. -/
structure Tracks (setup : Setup) (chain : Chain setup.config) : Prop where
  lastUpdateBlock : ∀ last ∈ chain.runtime.storage.lastUpdateBlock, last ≤ chain.number
  mapping : chain.runtime.storage.initialized = true → ∃ reference scripts,
    chain.reference = some reference ∧
      chain.runtime.storage.mainChainScripts = some scripts ∧
      setup.source.getStateAtBlock reference scripts =
        .ok (getCurrentState chain.runtime.storage.mapping)

variable {reference : McBlockHash} {scripts : MainChainScriptsV1} {state : Mappings}

/-- The provider offers the difference between the stored map and the new state. -/
theorem Tracks.newV1_eq (h : Tracks setup chain)
    (hscripts : chain.runtime.storage.mainChainScripts = some scripts)
    (hstate : setup.source.getStateAtBlock reference scripts = .ok state) :
    ∃ changes, newV1 chain.runtime.storage reference chain.reference setup.source =
        .ok (.activeV1 (collect changes)) ∧
      changes.Perm (updatedEntries (getCurrentState chain.runtime.storage.mapping) state ++
        removedEntries (getCurrentState chain.runtime.storage.mapping) state) := by
  by_cases hinitialized : chain.runtime.storage.initialized = true
  · obtain ⟨parent, scripts', hparent, hscripts', hprevious⟩ := h.mapping hinitialized
    obtain rfl := Option.some.inj (hscripts.symm.trans hscripts')
    refine ⟨_, ?_, .refl _⟩
    have hchanges : setup.source.getMappingChanges chain.reference reference scripts =
        .ok (updatedEntries (getCurrentState chain.runtime.storage.mapping) state ++
          removedEntries (getCurrentState chain.runtime.storage.mapping) state) := by
      rw [hparent]
      simp only [Setup.source, uncachedSource] at hstate hprevious ⊢
      simp only [hstate, hprevious, Fallible.ok_bind]
    simp only [newV1, hscripts, hinitialized, if_true, hchanges, Fallible.ok_bind]
  · refine ⟨_, ?_, List.perm_append_comm⟩
    simp only [newV1, hscripts, hinitialized, hstate, Fallible.ok_bind, if_false,
      Bool.false_eq_true]

theorem newV1_eq_error (hscripts : chain.runtime.storage.mainChainScripts = some scripts)
    {error : SourceError} (hstate : setup.source.getStateAtBlock reference scripts = .error error) :
    newV1 chain.runtime.storage reference chain.reference setup.source = .error error := by
  by_cases hinitialized : chain.runtime.storage.initialized = true
  · have hchanges : setup.source.getMappingChanges chain.reference reference scripts =
        .error error := by
      simp only [Setup.source, uncachedSource] at hstate ⊢
      simp only [hstate, Fallible.error_bind]
    simp only [newV1, hscripts, hinitialized, if_true, hchanges, Fallible.error_bind]
  · simp only [newV1, hscripts, hinitialized, hstate, Fallible.error_bind, if_false,
      Bool.false_eq_true]

/-- After the inherent, the pallet is initialized and holds the new state. -/
theorem Tracks.executeInherent_spec (h : Tracks setup chain)
    (hscripts : chain.runtime.storage.mainChainScripts = some scripts)
    (hstate : setup.source.getStateAtBlock reference scripts = .ok state) {r : Runtime setup.config}
    (hr : executeInherent setup chain reference = .ok r) :
    r.storage.initialized = true ∧ r.storage.mainChainScripts = some scripts ∧
      (∀ last ∈ r.storage.lastUpdateBlock, last ≤ chain.number + 1) ∧
      getCurrentState r.storage.mapping = state := by
  obtain ⟨changes, hnew, hperm⟩ := h.newV1_eq hscripts hstate
  have hdiff := (isDiff_updated_removed _ state).perm hperm
  have hlast : ∀ last ∈ chain.runtime.storage.lastUpdateBlock, last < chain.number + 1 :=
    fun last hmem => Nat.lt_succ_of_le (h.lastUpdateBlock last hmem)
  simp only [executeInherent, hnew, InherentDataProvider.provideInherentData] at hr
  cases hcreate : createInherent chain.runtime.storage (.ok (some (collect changes))) with
  | error panic =>
      rw [hcreate] at hr
      cases hr
  | ok call =>
      rw [hcreate] at hr
      rcases createInherent_cases hcreate with ⟨rfl, hinitialized, rfl⟩ | ⟨registered, rfl, hwrite⟩
      · cases hr
        exact ⟨hinitialized, hscripts, fun last hmem => (hlast last hmem).le, hdiff.replay_eq⟩
      · obtain ⟨r', hdispatch, hstorage⟩ := dispatch_registerChanges registered hlast
          (by simp [hscripts])
        simp only [hdispatch] at hr
        cases hr
        rw [hstorage]
        refine ⟨rfl, hscripts, by simp, ?_⟩
        exact (hwrite _).trans hdiff.replay_eq

theorem Tracks.exists_executeInherent (h : Tracks setup chain)
    (hscripts : chain.runtime.storage.mainChainScripts = some scripts)
    (hstate : setup.source.getStateAtBlock reference scripts = .ok state)
    (hbounds : WithinBounds setup.config (getCurrentState chain.runtime.storage.mapping) state) :
    ∃ r, executeInherent setup chain reference = .ok r := by
  obtain ⟨changes, hnew, hperm⟩ := h.newV1_eq hscripts hstate
  have hlast : ∀ last ∈ chain.runtime.storage.lastUpdateBlock, last < chain.number + 1 :=
    fun last hmem => Nat.lt_succ_of_le (h.lastUpdateBlock last hmem)
  have hentries : ∀ change ∈ changes,
      change.1.utf8ByteSize ≤ setup.config.maxKeyLength.toNat ∧
        ∀ value, change.2 = some value →
          value.length ≤ setup.config.maxValueLength.toNat := by
    rintro ⟨key, value⟩ hchange
    rcases List.mem_append.mp (hperm.mem_iff.mp hchange) with hupdated | hremoved
    · obtain ⟨-, hafter, hsome⟩ := mem_updatedEntries.mp hupdated
      obtain ⟨value, rfl⟩ := Option.ne_none_iff_exists'.mp hsome
      obtain ⟨hkey, hvalue⟩ := hbounds.entries key value hafter
      refine ⟨hkey, ?_⟩
      rintro _ ⟨⟩
      exact hvalue
    · obtain ⟨hbefore, -, rfl⟩ := mem_removedEntries.mp hremoved
      refine ⟨Nat.le_of_not_lt fun hlt => ?_, by simp⟩
      exact hbefore (getElem?_getCurrentState_of_lt _ hlt)
  obtain ⟨call, hcreate⟩ := exists_createInherent chain.runtime.storage
    (hperm.length_eq ▸ hbounds.changes) hentries
  simp only [executeInherent, hnew, InherentDataProvider.provideInherentData, hcreate]
  rcases createInherent_cases hcreate with ⟨rfl, -, -⟩ | ⟨registered, rfl, -⟩
  · exact ⟨_, rfl⟩
  · obtain ⟨r', hdispatch, -⟩ := dispatch_registerChanges registered hlast (by simp [hscripts])
    refine ⟨r', ?_⟩
    simp only [hdispatch]
    rfl

theorem executeInherent_of_none (hscripts : chain.runtime.storage.mainChainScripts = none)
    (reference : McBlockHash) :
    executeInherent setup chain reference = .ok chain.runtime := by
  simp [executeInherent, newV1, hscripts, InherentDataProvider.provideInherentData,
    createInherent, createInherentOrErr, decodeInherentData]

theorem exists_state_of_executeInherent
    (hscripts : chain.runtime.storage.mainChainScripts = some scripts) {r : Runtime setup.config}
    (hr : executeInherent setup chain reference = .ok r) :
    ∃ state, setup.source.getStateAtBlock reference scripts = .ok state := by
  cases hstate : setup.source.getStateAtBlock reference scripts with
  | ok state => exact ⟨state, rfl⟩
  | error error =>
      rw [executeInherent, newV1_eq_error hscripts hstate] at hr
      cases hr

theorem Tracks.produceBlock (h : Tracks setup chain) {extrinsics : List (Extrinsic setup.config)}
    {chain' : Chain setup.config}
    (hblock : produceBlock setup chain reference extrinsics = .ok chain') :
    Tracks setup chain' := by
  obtain ⟨r, hr, heq⟩ := Fallible.bind_eq_ok_iff.mp hblock
  cases heq
  obtain ⟨hmapping, hlast, hinitialized⟩ :=
    foldl_executeExtrinsic (chain.number + 1) extrinsics r
  cases hscripts : chain.runtime.storage.mainChainScripts with
  | none =>
      rw [executeInherent_of_none hscripts] at hr
      cases hr
      refine ⟨?_, fun htrue => ?_⟩
      · rw [hlast]
        exact fun last hmem => (h.lastUpdateBlock last hmem).trans (Nat.le_succ _)
      · rw [hinitialized htrue] at htrue
        obtain ⟨-, scripts, -, hsome, -⟩ := h.mapping htrue
        rw [hscripts] at hsome
        cases hsome
  | some scripts =>
      obtain ⟨state, hstate⟩ := exists_state_of_executeInherent hscripts hr
      obtain ⟨-, hscripts', hlast', hstate'⟩ := h.executeInherent_spec hscripts hstate hr
      refine ⟨by rw [hlast]; exact hlast', fun htrue => ⟨reference, scripts, rfl, ?_, ?_⟩⟩
      · rw [hinitialized htrue]
        exact hscripts'
      · rw [hmapping, hstate']
        exact hstate

theorem tracks_of_run {trace : List McBlockHash} (h : (system setup).Run trace chain) :
    Tracks setup chain := by
  refine h.invariant (P := fun _ chain => Tracks setup chain) ?_ ?_
  · rintro _ ⟨number, reference, scripts, rfl⟩
    exact ⟨by simp [genesisBuild], by simp [genesisBuild]⟩
  · rintro _ _ _ _ htracks ⟨hblock⟩
    exact htracks.produceBlock hblock

/-- After every block whose parent has scripts, the pallet holds the state that the data
source reports at the reference of the block. Within the bounds of the pallet, the block can
be produced whenever the data source reports that state. -/
theorem mapping_tracks_main_chain (setup : Setup) (trace : List McBlockHash)
    (chain : Chain setup.config) (hrun : (system setup).Run trace chain)
    (scripts : MainChainScriptsV1)
    (hscripts : chain.runtime.storage.mainChainScripts = some scripts)
    (reference : McBlockHash) (extrinsics : List (Extrinsic setup.config)) :
    (∀ chain', produceBlock setup chain reference extrinsics = .ok chain' →
      setup.source.getStateAtBlock reference scripts =
        .ok (getCurrentState chain'.runtime.storage.mapping)) ∧
    (∀ state, setup.source.getStateAtBlock reference scripts = .ok state →
      WithinBounds setup.config (getCurrentState chain.runtime.storage.mapping) state →
        ∃ chain', produceBlock setup chain reference extrinsics = .ok chain') := by
  have htracks := tracks_of_run hrun
  constructor
  · intro chain' hblock
    obtain ⟨r, hr, heq⟩ := Fallible.bind_eq_ok_iff.mp hblock
    cases heq
    obtain ⟨state, hstate⟩ := exists_state_of_executeInherent hscripts hr
    obtain ⟨-, -, -, hmapping⟩ := htracks.executeInherent_spec hscripts hstate hr
    rw [hstate, (foldl_executeExtrinsic (chain.number + 1) extrinsics r).1, hmapping]
  · intro state hstate hbounds
    obtain ⟨r, hr⟩ := htracks.exists_executeInherent hscripts hstate hbounds
    exact ⟨_, Fallible.bind_eq_ok_iff.mpr ⟨r, hr, rfl⟩⟩

/-- The entry of block 5 is replaced in block 6. -/
def sampleDatabase : Database where
  block := [⟨1, .filled 32 5, some 5, some 1, some 50, 500⟩,
    ⟨2, .filled 32 6, some 6, some 1, some 60, 600⟩]
  tx := [⟨1, .filled 32 2, 1, 0⟩, ⟨2, .filled 32 3, 2, 0⟩]
  txOut := [⟨1, 1, 0, "addr", some (.filled 32 9), some 2⟩,
    ⟨2, 2, 0, "addr", some (.filled 32 10), none⟩]
  txIn := []
  maTxOut := [⟨1, 1, 1⟩, ⟨1, 2, 1⟩]
  multiAsset := [⟨1, .filled 28 3, []⟩]
  datum := [⟨.filled 32 9, .data (.list [.bytes [107], .bytes [7]])⟩,
    ⟨.filled 32 10, .data (.list [.bytes [107], .bytes [8]])⟩]

def sampleSetup : Setup where
  config := ⟨10, 10, 10, fun origin => origin = .root⟩
  order := Relational.Arrangement.stable _
  db := sampleDatabase
  txInConfig := .consumed

def sampleScripts : MainChainScriptsV1 := ⟨"addr", .filled 28 3⟩

/-- The first block takes over the entry, and the second one follows the replacement. -/
theorem mapping_tracks_main_chain_two_blocks :
    ∃ chain chain', (system sampleSetup).Run [.filled 32 5] chain ∧
      getCurrentState chain.runtime.storage.mapping = (∅ : Mappings).insert "k" [7] ∧
      produceBlock sampleSetup chain (.filled 32 6) [] = .ok chain' ∧
      getCurrentState chain'.runtime.storage.mapping = (∅ : Mappings).insert "k" [8] := by
  have hfirst : produceBlock sampleSetup
      ⟨0, none, genesisBuild sampleSetup.config (some sampleScripts), []⟩ (.filled 32 5) [] =
        .ok _ := rfl
  have run := System.Run.step (M := system sampleSetup)
    (.start ⟨0, none, some sampleScripts, rfl⟩) (.block hfirst)
  have hstate : sampleSetup.source.getStateAtBlock (.filled 32 6) sampleScripts =
      .ok ((∅ : Mappings).insert "k" [8]) := rfl
  obtain ⟨htracks, hproduced⟩ := mapping_tracks_main_chain sampleSetup _ _ run sampleScripts rfl
    (.filled 32 6) []
  obtain ⟨chain', hblock⟩ := hproduced _ hstate {
    changes := by decide
    entries := by
      intro key value h
      rw [Std.ExtTreeMap.getElem?_insert] at h
      split at h
      · rename_i hkey
        cases h
        rw [← Std.LawfulEqOrd.eq_of_compare hkey]
        decide
      · simp at h }
  exact ⟨_, chain', run, rfl, hblock, Except.ok.inj ((htracks chain' hblock).symm.trans hstate)⟩

end PartnerChains.GovernedMap
