import PartnerChains.Verification.Bridge.Cache

/-!
# Overlapping calls of the cached bridge data source

A call takes the lock several times. As long as the calls in flight have the same scripts,
they only replace the contents of the cache by other sound contents for these scripts.
-/

namespace PartnerChains.Bridge

open DbSync Relational

variable {Recipient : Type} {db : Database} {src : CachedSource Recipient} {call : CachedCall db}

/-! ## A call on its own -/

/-- Without other calls, the phases lead to the result of the call. -/
theorem CachedCall.advance_alone (cache : TokenUtxoCache) :
    (fun state => call.advance src state.1 state.2)^[7] (.idle, cache) =
      ((.done (call.getTransfers src cache).1, (call.getTransfers src cache).2) :
        Phase Recipient × TokenUtxoCache) := by
  simp only [Function.iterate_succ, Function.iterate_zero, Function.comp_apply, id_eq,
    CachedCall.getTransfers]
  cases hto : call.toBlock with
  | error error => simp [CachedCall.advance, hto, Phase.orFail]
  | ok toBlock =>
      simp only [CachedCall.advance, hto, Phase.orFail]
      cases call.resolveDataCheckpoint (cache.setMcScripts call.mainChainScripts) with
      | error error => simp
      | ok checkpoint =>
          dsimp only
          cases call.tryServeFromCache checkpoint toBlock
              (cache.setMcScripts call.mainChainScripts) with
          | some utxos => simp
          | none =>
              dsimp only
              cases call.readFill src checkpoint toBlock <;> simp

/-! ## What a call knows -/

/-- What a call has learned in its phase does not depend on the cache. -/
def Phase.Knows (src : CachedSource Recipient) (call : CachedCall db) : Phase Recipient → Prop
  | .idle | .begun => True
  | .located toBlock => call.toBlock = .ok toBlock
  | .resolved toBlock checkpoint | .missed toBlock checkpoint | .filled toBlock checkpoint =>
      call.toBlock = .ok toBlock ∧ resolveCheckpoint db call.dataCheckpoint = .ok checkpoint
  | .filling toBlock checkpoint startBlock endBlock utxos =>
      (call.toBlock = .ok toBlock ∧ resolveCheckpoint db call.dataCheckpoint = .ok checkpoint) ∧
        (rangeRows src.txInConfig db call.mainChainScripts startBlock endBlock).mapM
          decodeBridgeUtxo = .ok utxos
  | .done result => ∀ answer, result = .ok answer → call.uncached src = .ok answer

/-- The scripts of a call in flight are those of the cache. -/
structure Phase.Valid (src : CachedSource Recipient) (call : CachedCall db)
    (phase : Phase Recipient) (cache : TokenUtxoCache) : Prop where
  scripts : phase.InFlight → call.mainChainScripts = cache.mcScripts
  knows : phase.Knows src call

variable {cache : TokenUtxoCache}

theorem Phase.Valid.orFail {α : Type} {next : α → Phase Recipient} {x : Except CachedError α}
    (h : ∀ a, x = .ok a → (next a).Valid src call cache) :
    (Phase.orFail next x).Valid src call cache := by
  cases x with
  | error error => exact ⟨nofun, nofun⟩
  | ok a => exact h a rfl

variable {phase : Phase Recipient}

theorem advance_mcScripts (hphase : phase ≠ .idle) (cache : TokenUtxoCache) :
    (call.advance src phase cache).2.mcScripts = cache.mcScripts := by
  cases phase with
  | idle => exact absurd rfl hphase
  | resolved toBlock checkpoint =>
      unfold CachedCall.advance
      dsimp only
      split <;> rfl
  | _ => rfl

theorem Phase.Valid.of_mcScripts {cache cache' : TokenUtxoCache} (h : phase.Valid src call cache)
    (heq : cache'.mcScripts = cache.mcScripts) :
    phase.Valid src call cache' :=
  ⟨fun hflight => (h.scripts hflight).trans heq.symm, h.knows⟩

/-- A call that is served from a sound cache for its scripts returns the uncached answer. -/
theorem knows_done_of_served (hdb : Consistent db) (hsound : cache.Sound src.txInConfig db)
    (hscripts : call.mainChainScripts = cache.mcScripts) {toBlock : ℕ}
    {checkpoint : ResolvedBridgeDataCheckpoint}
    (hknows : call.toBlock = .ok toBlock ∧
      resolveCheckpoint db call.dataCheckpoint = .ok checkpoint) {utxos : List BridgeUtxo}
    (hserve : call.tryServeFromCache checkpoint toBlock cache = some utxos) :
    call.uncached src = .ok (call.answer src toBlock utxos) := by
  have htransparent : Served.Transparent src
      ⟨call, cache, .ok (call.answer src toBlock utxos)⟩ :=
    Served.transparent_of_served hdb hknows.1 hknows.2 hsound hscripts.symm hserve rfl
  cases huncached : call.uncached src with
  | error error => simpa [huncached, Except.toOption] using htransparent.same
  | ok answer => simpa [huncached, Except.toOption, eq_comm] using htransparent.same

/-- A turn keeps the cache sound and what the call itself knows. -/
theorem advance_valid (hdb : Consistent db) (hzero : FirstBlockEmpty src.txInConfig db)
    (hsound : cache.Sound src.txInConfig db) (h : phase.Valid src call cache) :
    (call.advance src phase cache).2.Sound src.txInConfig db ∧
      (call.advance src phase cache).1.Valid src call (call.advance src phase cache).2 := by
  obtain ⟨hscripts, hknows⟩ := h
  cases phase with
  | idle =>
      exact ⟨hsound.setMcScripts hzero _,
        fun _ => TokenUtxoCache.setMcScripts_mcScripts.symm, trivial⟩
  | begun =>
      refine ⟨hsound, .orFail fun toBlock hto => ?_⟩
      exact ⟨fun _ => hscripts trivial, hto⟩
  | located toBlock =>
      refine ⟨hsound, .orFail fun checkpoint hresolve => ?_⟩
      exact ⟨fun _ => hscripts trivial, hknows,
        (CachedCall.resolveDataCheckpoint_eq_ok_iff hsound).mp hresolve⟩
  | resolved toBlock checkpoint =>
      cases hserve : call.tryServeFromCache checkpoint toBlock cache with
      | some utxos =>
          simp only [CachedCall.advance, hserve]
          refine ⟨hsound, nofun, fun answer hanswer => ?_⟩
          obtain rfl := Except.ok.inj hanswer
          exact knows_done_of_served hdb hsound (hscripts trivial) hknows hserve
      | none =>
          simp only [CachedCall.advance, hserve]
          exact ⟨hsound, fun _ => hscripts trivial, hknows⟩
  | missed toBlock checkpoint =>
      refine ⟨hsound, .orFail fun fill hfill => ?_⟩
      obtain ⟨_, _, _, _, hrows⟩ := (CachedCall.readFill_eq_ok_iff hdb hzero).mp hfill
      exact ⟨fun _ => hscripts trivial, hknows, hrows⟩
  | filling toBlock checkpoint startBlock endBlock utxos =>
      refine ⟨?_, fun _ => hscripts trivial, hknows.1⟩
      refine TokenUtxoCache.Sound.setCachedTransfers hdb ?_
      rw [← hscripts trivial]
      exact hknows.2
  | filled toBlock checkpoint =>
      refine ⟨hsound, nofun, fun answer hanswer => ?_⟩
      unfold CachedCall.answerAfterFill at hanswer
      cases hserve : call.tryServeFromCache checkpoint toBlock cache with
      | none => simp [hserve] at hanswer
      | some utxos =>
          rw [hserve] at hanswer
          obtain rfl := Except.ok.inj hanswer
          exact knows_done_of_served hdb hsound (hscripts trivial) hknows hserve
  | done result => exact ⟨hsound, nofun, hknows⟩

/-! ## Interleavings -/

/-- In every interleaving in which no call begins while one with other scripts is in flight,
a call that succeeds returns what the uncached source returns. -/
theorem overlapping_calls_transparent {ι : Type} [DecidableEq ι] (src : CachedSource Recipient)
    (hdb : Consistent db) (hzero : FirstBlockEmpty src.txInConfig db)
    (calls : ι → CachedCall db) (schedule : List ι)
    (c : Threads.Configuration ι (Phase Recipient) TokenUtxoCache)
    (run : (((cachedCalls src calls).interleavings {}).restrict (ScriptsAgree calls)).Run
      schedule c) :
    ∀ i answer, c.threads i = .done (.ok answer) → (calls i).uncached src = .ok answer := by
  have hall := Threads.invariant_of_turns (I := fun cache => cache.Sound src.txInConfig db)
    (A := fun i phase cache => phase.Valid src (calls i) cache)
    (TokenUtxoCache.Sound.empty hzero) (fun i => ⟨nofun, trivial⟩) ?_ run
  · intro i answer hdone
    have hknows := (hall.2 i).knows
    rw [hdone] at hknows
    exact hknows answer rfl
  · intro c i hagree hsound hvalid
    obtain ⟨hsound', hown⟩ := advance_valid hdb hzero hsound (hvalid i)
    rw [Threads.turn_threads_self, Threads.turn_shared]
    refine ⟨hsound', hown, fun j _ => ?_⟩
    by_cases hidle : c.threads i = .idle
    · -- the other calls in flight have the scripts that are set now
      refine ⟨fun hflight => ?_, (hvalid j).knows⟩
      rw [hagree hidle j hflight]
      change _ = ((calls i).advance src (c.threads i) c.shared).2.mcScripts
      rw [hidle]
      exact TokenUtxoCache.setMcScripts_mcScripts.symm
    · exact (hvalid j).of_mcScripts (advance_mcScripts hidle c.shared)

/-! ### Two calls -/

/-- The first call is for one address, the second for the given one. -/
def twoCalls (second : String) (first : Bool) : CachedCall twoAddresses :=
  upToBlockFive (if first then "a" else second) blockFive

/-- Two calls for one address, of which the second is served from what the first one fills. -/
theorem overlapping_calls_transparent_same_scripts :
    ∃ c, (((cachedCalls plainSource (twoCalls "a")).interleavings {}).restrict
        (ScriptsAgree (twoCalls "a"))).Run
        [true, true, true, false, false, false, true, true, true, false] c ∧
      c.threads false = .done (.ok ([.invalidTransfer 7 ⟨.filled 32 2, 0⟩], .block 5)) ∧
      (twoCalls "a" false).uncached plainSource =
        .ok ([.invalidTransfer 7 ⟨.filled 32 2, 0⟩], .block 5) := by
  have hagree (c : Threads.Configuration Bool (Phase ℕ) TokenUtxoCache) (i : Bool) :
      ScriptsAgree (twoCalls "a") c i := fun _ j _ => by cases i <;> cases j <;> rfl
  have run := (Threads.run_schedule (cachedCalls plainSource (twoCalls "a")) {} [true, true,
    true, false, false, false, true, true, true, false]).restrict hagree
  have hdone : ([true, true, true, false, false, false, true, true, true, false].foldl
      (cachedCalls plainSource (twoCalls "a")).turn
      ⟨(cachedCalls plainSource (twoCalls "a")).start, {}⟩).threads false =
        .done (.ok ([.invalidTransfer 7 ⟨.filled 32 2, 0⟩], .block 5)) := rfl
  exact ⟨_, run, hdone, overlapping_calls_transparent plainSource twoAddresses_consistent
    twoAddresses_firstBlockEmpty _ _ _ run false _ hdone⟩

/-- The scripts of the second call are set, and its data stored, before the first call looks
into the cache: the first call returns the transfer to the other address. -/
theorem transfer_of_other_scripts :
    ∃ c, ((cachedCalls plainSource (twoCalls "b")).interleavings {}).Run
        [true, true, true, false, false, false, false, false, false, true] c ∧
      c.threads true = .done (.ok ([.invalidTransfer 9 ⟨.filled 32 2, 1⟩], .block 5)) ∧
      (twoCalls "b" true).uncached plainSource =
        .ok ([.invalidTransfer 7 ⟨.filled 32 2, 0⟩], .block 5) :=
  ⟨_, Threads.run_schedule _ _ _, rfl, rfl⟩

end PartnerChains.Bridge
