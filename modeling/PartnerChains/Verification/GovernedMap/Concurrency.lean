import PartnerChains.Verification.GovernedMap.Cache

/-!
# Overlapping calls of the cached governed map

The scripts are recorded when a call begins, and its changes are stored at its end. In
between, a call for another map may have recorded other scripts.
-/

namespace PartnerChains.GovernedMap

open DbSync Relational Fallible

variable {cfg : TxInConfiguration} {db : Database} {scripts : MainChainScriptsV1}

/-! ## A call on its own -/

/-- Without other calls, the phases lead to the result of the call. -/
theorem CachedCall.advance_alone (cacheSize : UInt16) (call : CachedCall db) (cache : Cache) :
    (fun state => call.advance cacheSize cfg state.1 state.2)^[5] (.idle, cache) =
      (.done (call.execute cacheSize cfg cache).1, (call.execute cacheSize cfg cache).2) := by
  simp only [Function.iterate_succ, Function.iterate_zero, Function.comp_apply, id_eq,
    CachedCall.execute, getMappingChangesCached]
  cases hrange : resolveRange call.blocks call.sinceMcBlock call.upToMcBlock with
  | error error => simp [CachedCall.advance, hrange, Phase.orFail]
  | ok range =>
      obtain ⟨since, upTo⟩ := range
      simp only [CachedCall.advance, hrange, Phase.orFail]
      cases (cache.setMainChainScripts call.scripts).getChangesInRange since upTo with
      | some changes => simp
      | none =>
          dsimp only
          cases fetchChanges cacheSize call.order cfg call.blocks since upTo call.scripts <;> simp

/-! ## Changes and their scripts -/

/-- The changes of a result are changes of the map that the call has asked for, in the range
it has asked for. -/
def OwnChanges (cfg : TxInConfiguration) (call : CachedCall db)
    (changes : List (String × Option ByteString)) : Prop :=
  ∃ since upTo, resolveRange call.blocks call.sinceMcBlock call.upToMcBlock =
      .ok (since, upTo) ∧
    ∀ change ∈ changes, ∃ row ∈ changeRows cfg db call.scripts since upTo,
      row.write = some change

/-- The cached changes are changes of the map whose scripts are recorded. -/
def ContentsBelong (cfg : TxInConfiguration) (db : Database) (cache : Cache) : Prop :=
  ∀ change ∈ cache.changes, ∃ scripts : MainChainScriptsV1,
    cache.address = some scripts.validatorAddress ∧
      cache.policyId = some scripts.assetPolicyId ∧
      ∃ since upTo, ∃ row ∈ changeRows cfg db scripts since upTo, row.change = some change

/-- The scripts that are recorded in the cache. -/
def Cache.Records (cache : Cache) (scripts : MainChainScriptsV1) : Prop :=
  cache.address = some scripts.validatorAddress ∧ cache.policyId = some scripts.assetPolicyId

variable {cache : Cache}

theorem Cache.Records.scripts_eq {scripts' : MainChainScriptsV1} (h : cache.Records scripts)
    (h' : cache.Records scripts') : scripts = scripts' := by
  obtain ⟨address, policyId⟩ := scripts
  obtain ⟨address', policyId'⟩ := scripts'
  rw [MainChainScriptsV1.mk.injEq]
  exact ⟨Option.some.inj (h.1.symm.trans h'.1), Option.some.inj (h.2.symm.trans h'.2)⟩

theorem Cache.Records.setMainChainScripts (h : cache.Records scripts) :
    cache.setMainChainScripts scripts = cache :=
  if_neg (by simp [h.1, h.2])

/-- The cache is empty, or filled by one query for the scripts that it records. -/
def Cache.Contained (cfg : TxInConfiguration) (db : Database) (cache : Cache) : Prop :=
  cache.highestBlockNumber = none ∧ cache.changes = [] ∨
    ∃ scripts order since searched, cache.FilledBy cfg db scripts order since searched

theorem Cache.Contained.setMainChainScripts (h : cache.Contained cfg db)
    (scripts : MainChainScriptsV1) : (cache.setMainChainScripts scripts).Contained cfg db := by
  unfold Cache.setMainChainScripts
  split
  · exact .inl ⟨rfl, rfl⟩
  · exact h

theorem Cache.Contained.contentsBelong (h : cache.Contained cfg db) :
    ContentsBelong cfg db cache := by
  intro change hchange
  rcases h with ⟨-, hempty⟩ | ⟨scripts, order, since, searched, hfilled⟩
  · rw [hempty] at hchange
    cases hchange
  · exact ⟨scripts, hfilled.address, hfilled.policyId, since, searched,
      hfilled.mem_changes_iff.mp hchange⟩

/-- What is selected from the changes of one query are changes of the selected range. -/
theorem own_of_filterChangesInRange {order : Arrangement DatumChangeRow.orderKey}
    {first since : Option ℕ} {searched upTo : ℕ} {change : String × Option ByteString}
    (h : change ∈ filterChangesInRange ((order.arrange (changeRows cfg db scripts first
      searched)).filterMap DatumChangeRow.change) since upTo) :
    ∃ row ∈ changeRows cfg db scripts since upTo, row.write = some change := by
  rw [filterChangesInRange_filterMap] at h
  obtain ⟨row, hrow, hwrite⟩ := List.mem_filterMap.mp h
  obtain ⟨hmem, hrange⟩ := List.mem_filter.mp hrow
  have htouches := (mem_changeRows.mp ((order.perm _).mem_iff.mp hmem)).2
  exact ⟨row, mem_changeRows.mpr ⟨of_decide_eq_true hrange, htouches⟩, hwrite⟩

/-! ## What a call knows -/

/-- What a call has learned in its phase does not depend on the cache. -/
def Phase.Knows (cfg : TxInConfiguration) (call : CachedCall db) : Phase → Prop
  | .idle | .begun => True
  | .ranged since upTo | .missed since upTo =>
      resolveRange call.blocks call.sinceMcBlock call.upToMcBlock = .ok (since, upTo)
  | .fetched since upTo changes =>
      resolveRange call.blocks call.sinceMcBlock call.upToMcBlock = .ok (since, upTo) ∧
        ∃ searched, getChangesInRangeToCache call.order db cfg since searched call.scripts =
          .ok changes
  | .done result => ∀ changes, result = .ok changes → OwnChanges cfg call changes

/-- The scripts of a call in flight are recorded in the cache. -/
structure Phase.Valid (cfg : TxInConfiguration) (call : CachedCall db) (phase : Phase)
    (cache : Cache) : Prop where
  scripts : phase.InFlight → cache.Records call.scripts
  knows : phase.Knows cfg call

variable {call : CachedCall db}

theorem Phase.Valid.orFail {α : Type} {next : α → Phase} {x : Except SourceError α}
    (h : ∀ a, x = .ok a → (next a).Valid cfg call cache) :
    (Phase.orFail next x).Valid cfg call cache := by
  cases x with
  | error error => exact ⟨nofun, nofun⟩
  | ok a => exact h a rfl

theorem advance_records (cacheSize : UInt16) (cfg : TxInConfiguration) (call : CachedCall db)
    {phase : Phase} (hphase : phase ≠ .idle) (cache : Cache) :
    (call.advance cacheSize cfg phase cache).2.address = cache.address ∧
      (call.advance cacheSize cfg phase cache).2.policyId = cache.policyId := by
  cases phase with
  | idle => exact absurd rfl hphase
  | ranged since upTo =>
      unfold CachedCall.advance
      dsimp only
      split <;> exact ⟨rfl, rfl⟩
  | _ => exact ⟨rfl, rfl⟩

theorem ownChanges_of_hit (h : cache.Contained cfg db) (hrecords : cache.Records call.scripts)
    {since : Option ℕ} {upTo : ℕ}
    (hrange : resolveRange call.blocks call.sinceMcBlock call.upToMcBlock = .ok (since, upTo))
    {changes : List (String × Option ByteString)}
    (hhit : cache.getChangesInRange since upTo = some changes) : OwnChanges cfg call changes := by
  refine ⟨since, upTo, hrange, fun change hchange => ?_⟩
  obtain ⟨_, highest, _, hhighest, _, _, rfl⟩ := Cache.getChangesInRange_eq_some hhit
  rcases h with ⟨hnone, -⟩ | ⟨scripts, order, first, searched, hfilled⟩
  · rw [hnone] at hhighest
    cases hhighest
  · obtain rfl := hrecords.scripts_eq ⟨hfilled.address, hfilled.policyId⟩
    rw [hfilled.changes] at hchange
    exact own_of_filterChangesInRange hchange

/-- A turn keeps the contents with the recorded scripts, and what the call itself knows. -/
theorem advance_valid (cacheSize : UInt16) {phase : Phase} (hcache : cache.Contained cfg db)
    (h : phase.Valid cfg call cache) :
    (call.advance cacheSize cfg phase cache).2.Contained cfg db ∧
      (call.advance cacheSize cfg phase cache).1.Valid cfg call
        (call.advance cacheSize cfg phase cache).2 := by
  obtain ⟨hscripts, hknows⟩ := h
  cases phase with
  | idle =>
      exact ⟨hcache.setMainChainScripts _,
        fun _ => cache.setMainChainScripts_address call.scripts, trivial⟩
  | begun =>
      refine ⟨hcache, .orFail fun range hrange => ?_⟩
      exact ⟨fun _ => hscripts trivial, hrange⟩
  | ranged since upTo =>
      cases hhit : cache.getChangesInRange since upTo with
      | some changes =>
          simp only [CachedCall.advance, hhit]
          refine ⟨hcache, nofun, fun answer hanswer => ?_⟩
          obtain rfl := Except.ok.inj hanswer
          exact ownChanges_of_hit hcache (hscripts trivial) hknows hhit
      | none =>
          simp only [CachedCall.advance, hhit]
          exact ⟨hcache, fun _ => hscripts trivial, hknows⟩
  | missed since upTo =>
      refine ⟨hcache, .orFail fun changes hfetch => ?_⟩
      obtain ⟨stable, -, hchanges⟩ := bind_eq_ok_iff.mp hfetch
      exact ⟨fun _ => hscripts trivial, hknows, _, hchanges⟩
  | fetched since upTo changes =>
      obtain ⟨hrange, searched, hchanges⟩ := hknows
      refine ⟨.inr ⟨call.scripts, call.order, since, searched, ?_⟩, nofun, fun answer hanswer => ?_⟩
      · have hfilled : ((cache.setMainChainScripts call.scripts).update changes).FilledBy cfg db
            call.scripts call.order since searched := Cache.filledBy_update hchanges
        rwa [(hscripts trivial).setMainChainScripts] at hfilled
      · obtain rfl := Except.ok.inj hanswer
        refine ⟨since, upTo, hrange, fun change hchange => ?_⟩
        rw [(getChangesInRangeToCache_eq_ok_iff.mp hchanges).2] at hchange
        exact own_of_filterChangesInRange hchange
  | done result => exact ⟨hcache, nofun, hknows⟩

/-! ## Interleavings -/

/-- In every interleaving in which no call begins while one with other scripts is in flight,
the cached changes belong to the recorded scripts, and every call that succeeds returns
changes of its own map. -/
theorem overlapping_calls_keep_scripts {ι : Type} [DecidableEq ι] (cacheSize : UInt16)
    (cfg : TxInConfiguration) (calls : ι → CachedCall db) (schedule : List ι)
    (c : Threads.Configuration ι Phase Cache)
    (run : (((cachedCalls cacheSize cfg calls).interleavings {}).restrict
      (ScriptsAgree calls)).Run schedule c) :
    ContentsBelong cfg db c.shared ∧
      ∀ i changes, c.threads i = .done (.ok changes) → OwnChanges cfg (calls i) changes := by
  have hall := Threads.invariant_of_turns (I := fun cache => cache.Contained cfg db)
    (A := fun i phase cache => phase.Valid cfg (calls i) cache) (.inl ⟨rfl, rfl⟩)
    (fun i => ⟨nofun, trivial⟩) ?_ run
  · refine ⟨hall.1.contentsBelong, fun i changes hdone => ?_⟩
    have hknows := (hall.2 i).knows
    rw [hdone] at hknows
    exact hknows changes rfl
  · intro c i hagree hcache hvalid
    obtain ⟨hcache', hown⟩ := advance_valid cacheSize hcache (hvalid i)
    rw [Threads.turn_threads_self, Threads.turn_shared]
    refine ⟨hcache', hown, fun j _ => ⟨fun hflight => ?_, (hvalid j).knows⟩⟩
    change ((calls i).advance cacheSize cfg (c.threads i) c.shared).2.Records _
    by_cases hidle : c.threads i = .idle
    · -- the other calls in flight have the scripts that are recorded now
      rw [hagree hidle j hflight, hidle]
      exact c.shared.setMainChainScripts_address (calls i).scripts
    · obtain ⟨haddress, hpolicy⟩ := advance_records cacheSize cfg (calls i) hidle c.shared
      exact ⟨haddress.trans ((hvalid j).scripts hflight).1,
        hpolicy.trans ((hvalid j).scripts hflight).2⟩

/-! ### Two maps -/

/-- Block 6 has an entry of each of two maps. -/
def twoMaps : Database :=
  { twoEntriesDatabase with
    block := [⟨1, .filled 32 6, some 6, some 1, some 60, 600⟩]
    tx := [⟨1, .filled 32 11, 1, 0⟩]
    txOut := [⟨1, 1, 0, "one", some (.filled 32 7), none⟩,
      ⟨2, 1, 1, "two", some (.filled 32 8), none⟩] }

/-- The first call is for one map, the second for the map at the given address. -/
def twoCalls (second : String) (first : Bool) : CachedCall twoMaps where
  order := Arrangement.stable _
  blocks := stableBlocks twoMaps ⟨6, .filled 32 6, 1, 60, 600⟩
  sinceMcBlock := none
  upToMcBlock := .filled 32 6
  scripts := ⟨if first then "one" else second, .filled 28 3⟩

/-- Two calls for one map, of which the second is served from what the first one stores. -/
theorem overlapping_calls_keep_scripts_one_map :
    ∃ c, (((cachedCalls 100 .consumed (twoCalls "one")).interleavings {}).restrict
        (ScriptsAgree (twoCalls "one"))).Run
        [true, true, true, false, false, true, true, false] c ∧
      c.threads false = .done (.ok [("a", some [7])]) ∧
      ContentsBelong .consumed twoMaps c.shared ∧
      OwnChanges .consumed (twoCalls "one" false) [("a", some [7])] := by
  have hagree (c : Threads.Configuration Bool Phase Cache) (i : Bool) :
      ScriptsAgree (twoCalls "one") c i := fun _ j _ => by cases i <;> cases j <;> rfl
  have run := (Threads.run_schedule (cachedCalls 100 .consumed (twoCalls "one")) {} [true, true,
    true, false, false, true, true, false]).restrict hagree
  have hdone : ([true, true, true, false, false, true, true, false].foldl
      (cachedCalls 100 .consumed (twoCalls "one")).turn
      ⟨(cachedCalls 100 .consumed (twoCalls "one")).start, {}⟩).threads false =
        .done (.ok [("a", some [7])]) := rfl
  obtain ⟨hcontents, hown⟩ := overlapping_calls_keep_scripts 100 .consumed (twoCalls "one") _ _ run
  exact ⟨_, run, hdone, hcontents, hown false _ hdone⟩

/-- The second call records its scripts before the first call stores its changes: the changes
are then found under scripts that they do not belong to. -/
theorem changes_of_other_scripts :
    ∃ c, ((cachedCalls 100 .consumed (twoCalls "two")).interleavings {}).Run
        [true, true, true, true, false, true, false, false] c ∧
      c.shared.address = some "two" ∧ c.shared.changes = [⟨6, "a", some [7]⟩] ∧
      c.threads false = .done (.ok [("a", some [7])]) ∧
      ¬ ContentsBelong .consumed twoMaps c.shared ∧
      ¬ OwnChanges .consumed (twoCalls "two" false) [("a", some [7])] := by
  have hwrites : ∀ row ∈ changeRows .consumed twoMaps ⟨"two", .filled 28 3⟩ none 6,
      row.write ≠ some ("a", some [7]) := by decide
  refine ⟨_, Threads.run_schedule _ _ _, rfl, rfl, rfl, fun h => ?_, fun h => ?_⟩
  · obtain ⟨scripts, haddress, hpolicy, since, upTo, row, hrow, hchange⟩ :=
      h ⟨6, "a", some [7]⟩ (.head _)
    have hscripts : scripts = ⟨"two", .filled 28 3⟩ :=
      Cache.Records.scripts_eq ⟨haddress, hpolicy⟩ ⟨rfl, rfl⟩
    obtain ⟨write, hwrite, hmk⟩ := Option.map_eq_some_iff.mp hchange
    obtain ⟨hblockNo, hkey, hvalue⟩ := Change.mk.inj hmk
    refine hwrites row ?_ (hwrite.trans (congrArg some (Prod.ext hkey hvalue)))
    rw [hscripts] at hrow
    exact mem_changeRows.mpr ⟨⟨rfl, hblockNo.le⟩, (mem_changeRows.mp hrow).2⟩
  · obtain ⟨since, upTo, hrange, hown⟩ := h
    have hresolved : resolveRange (twoCalls "two" false).blocks none (.filled 32 6) =
        .ok (none, 6) := rfl
    obtain ⟨rfl, rfl⟩ := Prod.mk.inj (Except.ok.inj (hresolved.symm.trans hrange))
    obtain ⟨row, hrow, hwrite⟩ := hown _ (.head _)
    exact hwrites row hrow hwrite

end PartnerChains.GovernedMap
