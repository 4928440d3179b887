import PartnerChains.Model.MetadataChain

/-!
# Deposits of block producer metadata

Each stored entry is matched by one hold of its deposit, and each removed entry by one
release. Entries are changed by their owners only.
-/

namespace PartnerChains.BlockProducerMetadata

open Fallible

variable {Metadata AccountId σ ε : Type} [DecidableEq AccountId]
  {cfg : Config Metadata AccountId σ ε} {env : Environment} {account : AccountId}
  {call : Call Metadata} {r r' : Runtime Metadata AccountId σ}

/-! ## What a call does -/

/-- The four things that a successful call may do to the entry of its key. -/
inductive Outcome (cfg : Config Metadata AccountId σ ε) (env : Environment)
    (account : AccountId) (call : Call Metadata) (r : Runtime Metadata AccountId σ) :
    Runtime Metadata AccountId σ → Prop
  | created (metadata : Metadata) (currency : σ) : call.metadata = some metadata →
      r.storage.lookup (cfg.hash call.crossChainPubKey) = none →
      cfg.currency.hold account env.holdAmount r.currency = .ok currency →
      Outcome cfg env account call r ⟨currency, r.storage.insert
        (cfg.hash call.crossChainPubKey) ⟨metadata, account, env.holdAmount⟩⟩
  | updated (metadata : Metadata) (entry : Entry Metadata AccountId) :
      call.metadata = some metadata →
      r.storage.lookup (cfg.hash call.crossChainPubKey) = some entry → entry.owner = account →
      Outcome cfg env account call r ⟨r.currency, r.storage.insert
        (cfg.hash call.crossChainPubKey) { entry with metadata }⟩
  | removed (entry : Entry Metadata AccountId) (released : ℕ) (currency : σ) :
      call.metadata = none →
      r.storage.lookup (cfg.hash call.crossChainPubKey) = some entry → entry.owner = account →
      cfg.currency.release account entry.deposit r.currency = .ok (released, currency) →
      Outcome cfg env account call r
        ⟨currency, r.storage.erase (cfg.hash call.crossChainPubKey)⟩
  | absent : call.metadata = none →
      r.storage.lookup (cfg.hash call.crossChainPubKey) = none → Outcome cfg env account call r r

theorem ensureValid_eq_ok {signature : CrossChainSignature}
    {message : MetadataSignedMessage Metadata AccountId}
    (h : ensureValid cfg env signature message = .ok ()) :
    env.currentTime ≤ message.validBefore ∧
      cfg.verify signature message.crossChainPubKey (cfg.encode message) = true := by
  unfold ensureValid at h
  dsimp only at h
  split_ifs at h with hpast hsignature
  exact ⟨UInt64.not_lt.mp hpast, by simpa using hsignature⟩

omit [DecidableEq AccountId] in
theorem ensureSigned_eq_ok {origin : RawOrigin AccountId}
    (h : (ensureSigned origin : Except (DispatchError ε) AccountId) = .ok account) :
    origin = .signed account := by
  cases origin with
  | signed other => rw [Except.ok.inj h]
  | root => cases h
  | none => cases h

theorem storeMetadata_outcome {metadata : Metadata} (hcall : call.metadata = some metadata)
    (h : storeMetadata cfg env account metadata (cfg.hash call.crossChainPubKey) r = .ok r') :
    Outcome cfg env account call r r' := by
  unfold storeMetadata at h
  cases hlookup : r.storage.lookup (cfg.hash call.crossChainPubKey) with
  | none =>
      rw [hlookup] at h
      obtain ⟨⟨deposit, currency⟩, hhold, h⟩ := bind_eq_ok_iff.mp h
      obtain rfl := Except.ok.inj h
      unfold holdDeposit at hhold
      split at hhold
      · rename_i hcurrency
        obtain ⟨rfl, rfl⟩ := Prod.mk.inj (Except.ok.inj hhold)
        exact .created metadata _ hcall hlookup hcurrency
      · cases hhold
  | some entry =>
      simp only [hlookup] at h
      split_ifs at h with howner
      obtain rfl := Except.ok.inj h
      exact .updated metadata entry hcall hlookup howner

theorem removeMetadata_outcome (hcall : call.metadata = none)
    (h : removeMetadata cfg account (cfg.hash call.crossChainPubKey) r = .ok r') :
    Outcome cfg env account call r r' := by
  unfold removeMetadata at h
  cases hlookup : r.storage.lookup (cfg.hash call.crossChainPubKey) with
  | none =>
      simp only [hlookup] at h
      obtain rfl := Except.ok.inj h
      exact .absent hcall hlookup
  | some entry =>
      simp only [hlookup] at h
      split_ifs at h with howner
      obtain ⟨currency, hrelease, h⟩ := bind_eq_ok_iff.mp h
      obtain rfl := Except.ok.inj h
      unfold releaseDeposit at hrelease
      split at hrelease
      · rename_i hcurrency
        obtain rfl := Except.ok.inj hrelease
        exact .removed entry _ _ hcall hlookup howner (howner ▸ hcurrency)
      · cases hrelease

/-- A successful call is signed, in time, and has one of the outcomes. -/
theorem dispatch_cases {origin : RawOrigin AccountId}
    (h : dispatch cfg env origin call r = .ok r') :
    ∃ account, origin = .signed account ∧ env.currentTime ≤ call.validBefore ∧
      cfg.verify call.signature call.crossChainPubKey
        (cfg.encode (call.message cfg account)) = true ∧
      Outcome cfg env account call r r' := by
  cases call with
  | upsertMetadata metadata signature crossChainPubKey validBefore =>
      obtain ⟨account, horigin, h⟩ := bind_eq_ok_iff.mp h
      obtain ⟨_, hvalid, hstore⟩ := bind_eq_ok_iff.mp h
      obtain ⟨htime, hsignature⟩ := ensureValid_eq_ok hvalid
      exact ⟨account, ensureSigned_eq_ok horigin, htime, hsignature,
        storeMetadata_outcome rfl hstore⟩
  | deleteMetadata crossChainPubKey signature validBefore =>
      obtain ⟨account, horigin, h⟩ := bind_eq_ok_iff.mp h
      obtain ⟨_, hvalid, hremove⟩ := bind_eq_ok_iff.mp h
      obtain ⟨htime, hsignature⟩ := ensureValid_eq_ok hvalid
      exact ⟨account, ensureSigned_eq_ok horigin, htime, hsignature,
        removeMetadata_outcome rfl hremove⟩

/-! ## Deposits -/

theorem Outcome.backed (h : Outcome cfg env account call r r') (hbacked : Backed cfg r) :
    Backed cfg r' := by
  intro other
  cases h with
  | created metadata currency _ hlookup hhold =>
      have hheld := cfg.currency.held_hold _ _ _ _ hhold other
      rw [hheld, hbacked other, deposits, deposits, KeyedSum.total_insert_new _ hlookup]
      rw [add_comm]
      congr 1
      exact if_congr eq_comm rfl rfl
  | updated metadata entry _ hlookup _ =>
      rw [hbacked other]
      exact (KeyedSum.total_insert_same _ hlookup rfl).symm
  | removed entry released currency _ hlookup howner hrelease =>
      have hheld := cfg.currency.held_release _ _ _ _ _ hrelease other
      have htotal := KeyedSum.total_erase
        (fun entry : Entry Metadata AccountId => if entry.owner = other then entry.deposit else 0)
        hlookup
      rw [hheld, hbacked other, deposits, htotal, deposits, howner]
      by_cases hother : other = account
      · simp [hother]
      · simp [hother, Ne.symm hother]
  | absent => exact hbacked other

theorem backed_of_run {trace : List (Event Metadata AccountId)}
    (run : (system cfg).Run trace r) : Backed cfg r := by
  refine run.invariant (P := fun _ r => Backed cfg r) ?_ ?_
  · rintro r ⟨hstorage, hheld⟩ account
    rw [hheld account, hstorage, deposits, KeyedSum.total_empty]
  · intro _ r event r' hbacked hstep
    cases hstep with
    | accept _ _ _ hdispatch =>
        obtain ⟨account, -, -, -, houtcome⟩ := dispatch_cases hdispatch
        exact houtcome.backed hbacked
    | reject => exact hbacked
    | elsewhere hheld => exact fun account => (hheld account).trans (hbacked account)

/-! ## Owners -/

theorem Outcome.lookup_ne (h : Outcome cfg env account call r r') {key : CrossChainKeyHash}
    (hne : key ≠ cfg.hash call.crossChainPubKey) :
    r'.storage.lookup key = r.storage.lookup key := by
  cases h with
  | created => exact AList.lookup_insert_ne hne
  | updated => exact AList.lookup_insert_ne hne
  | removed => exact AList.lookup_erase_ne hne
  | absent => rfl

theorem Outcome.byOwner (h : Outcome cfg env account call r r')
    (htime : env.currentTime ≤ call.validBefore)
    (hsignature : cfg.verify call.signature call.crossChainPubKey
      (cfg.encode (call.message cfg account)) = true) :
    ByOwner cfg (cfg.hash call.crossChainPubKey) r.storage r'.storage env account call := by
  refine ⟨rfl, htime, hsignature, ?_, ?_, ?_⟩
  · intro entry hentry
    cases h with
    | created _ _ _ hlookup => rw [hlookup] at hentry; cases hentry
    | updated _ _ _ hlookup howner =>
        rw [hlookup] at hentry
        exact Option.some.inj hentry ▸ howner
    | removed _ _ _ _ hlookup howner =>
        rw [hlookup] at hentry
        exact Option.some.inj hentry ▸ howner
    | absent _ hlookup => rw [hlookup] at hentry; cases hentry
  · intro entry hentry
    cases h with
    | created =>
        rw [AList.lookup_insert] at hentry
        obtain rfl := Option.some.inj hentry
        rfl
    | updated _ _ _ _ howner =>
        rw [AList.lookup_insert] at hentry
        obtain rfl := Option.some.inj hentry
        exact howner
    | removed => rw [AList.lookup_erase] at hentry; cases hentry
    | absent _ hlookup => rw [hlookup] at hentry; cases hentry
  · cases h with
    | created _ _ hcall => rw [AList.lookup_insert, hcall]; rfl
    | updated _ _ hcall => rw [AList.lookup_insert, hcall]; rfl
    | removed _ _ _ hcall => rw [AList.lookup_erase, hcall]; rfl
    | absent hcall hlookup => rw [hlookup, hcall]; rfl

/-- In every run, what is held from each account is the sum of the deposits of its entries,
and every step that changes an entry is an accepted call of the owner of the entry with an
unexpired signature of the key of the entry over the content of the call. -/
theorem deposits_held_and_entries_owned (cfg : Config Metadata AccountId σ ε)
    (trace : List (Event Metadata AccountId)) (r : Runtime Metadata AccountId σ)
    (run : (system cfg).Run trace r) :
    Backed cfg r ∧ ∀ event r', (system cfg).Step r event r' → ∀ key,
      r'.storage.lookup key ≠ r.storage.lookup key → ∃ env account call,
        event = .accepted env (.signed account) call ∧
          ByOwner cfg key r.storage r'.storage env account call := by
  refine ⟨backed_of_run run, fun event r' hstep key hchanged => ?_⟩
  cases hstep with
  | accept env _ call hdispatch =>
      obtain ⟨account, rfl, htime, hsignature, houtcome⟩ := dispatch_cases hdispatch
      obtain rfl : key = _ := not_not.mp fun hne => hchanged (houtcome.lookup_ne hne)
      exact ⟨env, account, call, rfl, houtcome.byOwner htime hsignature⟩
  | reject => exact absurd rfl hchanged
  | elsewhere => exact absurd rfl hchanged

/-! ### One producer -/

/-- Held balances as a function. -/
def countingCurrency : Currency ℕ (ℕ → ℕ) Unit where
  held s := s
  hold account amount s := .ok (Function.update s account (s account + amount))
  release account amount s :=
    .ok (min amount (s account), Function.update s account (s account - amount))
  held_hold account amount s s' h other := by
    obtain rfl := Except.ok.inj h
    rw [Function.update_apply]
    split_ifs with heq
    · rw [heq]
    · rfl
  held_release account amount s released s' h other := by
    obtain ⟨-, rfl⟩ := Prod.mk.inj (Except.ok.inj h)
    rw [Function.update_apply]
    split_ifs with heq
    · rw [heq]
    · rfl

/-- A signature is the key followed by the signed bytes. -/
def plainConfig : Config UInt8 ℕ (ℕ → ℕ) Unit where
  genesisUtxo := ⟨.filled 32 0, 0⟩
  hash key := .filled 28 (key.headD 0)
  verify signature key message := signature = key ++ message
  encode message := [message.metadata.getD 0, .ofNat message.owner]
  currency := countingCurrency

/-- Account 1 stores metadata for key 7, changes it when more is asked for as a deposit, and
then deletes it. -/
theorem deposits_held_and_entries_owned_two_upserts :
    ∃ r r' : Runtime UInt8 ℕ (ℕ → ℕ), (system plainConfig).Run
        [.accepted ⟨10, 5⟩ (.signed 1) (.upsertMetadata 3 [7, 3, 1] [7] 20),
          .accepted ⟨12, 8⟩ (.signed 1) (.upsertMetadata 4 [7, 4, 1] [7] 20)] r ∧
      deposits r.storage 1 = 5 ∧ Backed plainConfig r ∧ r'.storage = ∅ ∧
      ByOwner plainConfig (.filled 28 7) r.storage r'.storage ⟨14, 8⟩ 1
        (.deleteMetadata [7] [7, 0, 1] 20) := by
  have hstart : (system plainConfig).Init ⟨fun _ => 0, ∅⟩ := ⟨rfl, fun _ => rfl⟩
  have run := System.Run.step (.step (.start hstart)
    (.accept ⟨10, 5⟩ (.signed 1) (.upsertMetadata 3 [7, 3, 1] [7] 20) rfl))
    (.accept ⟨12, 8⟩ (.signed 1) (.upsertMetadata 4 [7, 4, 1] [7] 20) rfl)
  obtain ⟨hbacked, howned⟩ := deposits_held_and_entries_owned plainConfig _ _ run
  obtain ⟨env, account, call, hevent, hby⟩ := howned _ _
    (.accept ⟨14, 8⟩ (.signed 1) (.deleteMetadata [7] [7, 0, 1] 20) rfl) (.filled 28 7)
    (by decide)
  cases hevent
  exact ⟨_, _, run, rfl, hbacked, rfl, hby⟩

end PartnerChains.BlockProducerMetadata
