import PartnerChains.Model.MainChain

/-!
# Proposed references are accepted

A proposer may reuse the parent's reference. It then is later than the freshest stable
block of its own range, hence not too old, and it was recent enough for an earlier slot.
-/

namespace PartnerChains.McHash

open Fallible

/-! ## Digests -/

theorem valueFromDigest_append {before after : List DigestItem} {hash : McBlockHash}
    (h : ∀ data, DigestItem.preRuntime mcHashDigestId data ∉ before) :
    valueFromDigest (before ++ fromMcBlockHash hash ++ after) = .ok hash := by
  induction before with
  | nil => simp [fromMcBlockHash, valueFromDigest, Bytes.tryFrom_val]
  | cons item before ih =>
      have hrest : valueFromDigest (before ++ fromMcBlockHash hash ++ after) = .ok hash :=
        ih fun data hmem => h data (List.mem_cons_of_mem _ hmem)
      cases item with
      | preRuntime id data =>
          have hid : id ≠ mcHashDigestId := by
            rintro rfl
            exact h data List.mem_cons_self
          simpa [valueFromDigest, hid] using hrest
      | _ => simpa [valueFromDigest] using hrest

variable {provider : McHashInherentDataProvider}

theorem valueFromDigest_of_proposeLogs {before logs after : List DigestItem}
    (hbefore : ∀ data, DigestItem.preRuntime mcHashDigestId data ∉ before)
    (hlogs : proposeLogs before provider.provideInherentData = .ok logs) :
    valueFromDigest (logs ++ after) = .ok provider.mcBlock.hash := by
  obtain rfl : before ++ fromMcBlockHash provider.mcBlock.hash = logs := Except.ok.inj hlogs
  exact valueFromDigest_append hbefore

/-! ## Data source answers -/

section Node

variable {p : StabilityParameters} {chain : MainChain} {ε : Type} (node : Node p chain ε)

theorem Node.latest_of_found {reference : Timestamp} {missing : McHashInherentError ε}
    {block : MainchainBlock}
    (h : expectFound missing (node.source.getLatestStableBlockFor reference) = .ok block) :
    node.Stable block ∧ InAllowableRange p reference block := by
  obtain ⟨answer, hanswer, hsome, -⟩ := node.latest_stable reference
  rw [hanswer] at h
  cases answer with
  | none => cases h
  | some found =>
      obtain rfl : found = block := Except.ok.inj h
      exact ⟨(hsome found rfl).1, (hsome found rfl).2.1⟩

theorem Node.byHash_of_found {hash : McBlockHash} {missing : McHashInherentError ε}
    {block : MainchainBlock}
    (h : expectFound missing (node.source.getBlockByHash hash) = .ok block) :
    block ∈ chain.blocks ∧ block.hash = hash := by
  obtain ⟨answer, hanswer, hsome⟩ := node.by_hash hash
  rw [hanswer] at h
  cases answer with
  | none => cases h
  | some found =>
      obtain rfl : found = block := Except.ok.inj h
      obtain ⟨hknown, hhash⟩ := (hsome found).mp rfl
      exact ⟨node.known_mem found hknown, hhash⟩

theorem Node.getMcStateReference_of_stable {slot slotDuration time : ℕ}
    (htime : timestamp slot slotDuration = some time) {block : MainchainBlock}
    (hstable : node.Stable block) (hrange : InAllowableRange p time block) :
    getMcStateReference slot block.hash slotDuration node.source = .ok block := by
  obtain ⟨answer, hanswer, hsome⟩ := node.stable_for block.hash time
  have hfound := (hsome block).mpr ⟨hstable, rfl, hrange⟩
  simp [getMcStateReference, htime, hanswer, hfound, expectFound]

/-- A proposal references the freshest stable block or, when that one is older, the block
that the parent references. -/
theorem Node.newProposal_cases {header : Header} {slot slotDuration : ℕ}
    (h : newProposal header node.source slot slotDuration = .ok provider) :
    ∃ time fresh, timestamp slot slotDuration = some time ∧ node.Stable fresh ∧
      InAllowableRange p time fresh ∧
      ((∃ error, valueFromDigest header.logs = .error error ∧ provider.mcBlock = fresh) ∨
        ∃ parent, valueFromDigest header.logs = .ok parent.hash ∧ parent ∈ chain.blocks ∧
          provider.mcBlock = if parent.number ≤ fresh.number then fresh else parent) := by
  unfold newProposal at h
  cases htime : timestamp slot slotDuration with
  | none => simp [htime] at h
  | some time =>
      rw [htime] at h
      obtain ⟨fresh, hfresh, h⟩ := bind_eq_ok_iff.mp h
      obtain ⟨hstable, hrange⟩ := node.latest_of_found hfresh
      refine ⟨time, fresh, rfl, hstable, hrange, ?_⟩
      cases hdigest : valueFromDigest header.logs with
      | error error =>
          rw [hdigest] at h
          exact .inl ⟨error, rfl, by rw [← Except.ok.inj h]⟩
      | ok hash =>
          rw [hdigest] at h
          obtain ⟨parent, hparent, hprovider⟩ := bind_eq_ok_iff.mp h
          obtain ⟨hmem, rfl⟩ := node.byHash_of_found hparent
          refine .inr ⟨parent, rfl, hmem, ?_⟩
          split_ifs at hprovider ⊢ <;> rw [← Except.ok.inj hprovider]

end Node

/-! ## Reusing the parent's reference -/

theorem timestamp_le_of_lt {slot slot' slotDuration time time' : ℕ} (hlt : slot < slot')
    (htime : timestamp slot slotDuration = some time)
    (htime' : timestamp slot' slotDuration = some time') : time ≤ time' := by
  simp only [timestamp, Option.ite_none_right_eq_some, Option.some.injEq] at htime htime'
  rw [← htime.2, ← htime'.2]
  exact Nat.mul_le_mul_left slotDuration hlt.le

/-- A block between one that is young enough for a later slot and the range of an earlier
slot is in the range of the later slot. -/
theorem InAllowableRange.reuse {p : StabilityParameters} {time time' : Timestamp}
    {parent fresh : MainchainBlock} (hparent : InAllowableRange p time parent)
    (hfresh : InAllowableRange p time' fresh) (htime : time ≤ time')
    (horder : fresh.timestamp ≤ parent.timestamp) : InAllowableRange p time' parent := by
  have htime' : (time : ℚ) ≤ time' := by exact_mod_cast htime
  have horder' : (fresh.timestamp : ℚ) ≤ parent.timestamp := by exact_mod_cast horder
  exact ⟨by linarith [hfresh.1], by linarith [hparent.2]⟩

section Chain

variable {p : StabilityParameters} {chain : MainChain} {ε : Type} {slotDuration : ℕ}
  {genesis : Header}

/-- The reference of a block: it is in the header, in range, and was stable for one of the
producers up to this block. -/
structure Referenced (slotDuration : ℕ) (blocks : List (Block p chain ε))
    (block : Block p chain ε) : Prop where
  digest : valueFromDigest block.header.logs = .ok block.reference.hash
  in_range : ∃ time, timestamp block.slot slotDuration = some time ∧
    InAllowableRange p time block.reference
  stable : ∃ ancestor ∈ blocks, ancestor.producer.Stable block.reference

variable {block : Block p chain ε} {blocks : List (Block p chain ε)}

theorem Referenced.mem (h : Referenced slotDuration blocks block) :
    block.reference ∈ chain.blocks := by
  obtain ⟨ancestor, -, hstable⟩ := h.stable
  exact ancestor.producer.known_mem _ (ancestor.producer.stable_known _ hstable)

/-- A block may refer to what its parent refers to when that is not older than a block in
range for its own slot. -/
theorem Referenced.reuse {parent block : Block p chain ε} {time : Timestamp}
    {fresh : MainchainBlock} (h : Referenced slotDuration blocks parent)
    (hdigest : valueFromDigest block.header.logs = .ok block.reference.hash)
    (heq : block.reference = parent.reference) (hslot : parent.slot < block.slot)
    (htime : timestamp block.slot slotDuration = some time) (hfresh : InAllowableRange p time fresh)
    (horder : fresh.timestamp ≤ parent.reference.timestamp) :
    Referenced slotDuration (blocks ++ [block]) block := by
  obtain ⟨ptime, hptime, hprange⟩ := h.in_range
  obtain ⟨ancestor, hancestor, hpstable⟩ := h.stable
  have htimes : ptime ≤ time := timestamp_le_of_lt hslot hptime htime
  refine ⟨hdigest, ⟨time, htime, ?_⟩, ancestor, List.mem_append_left _ hancestor, ?_⟩
  · rw [heq]
    exact hprange.reuse hfresh htimes horder
  · rwa [heq]

/-- A block may refer to a block that is stable and in range for its producer. -/
theorem Referenced.of_stable {time : Timestamp}
    (hdigest : valueFromDigest block.header.logs = .ok block.reference.hash)
    (htime : timestamp block.slot slotDuration = some time)
    (hrange : InAllowableRange p time block.reference)
    (hstable : block.producer.Stable block.reference) :
    Referenced slotDuration (blocks ++ [block]) block :=
  ⟨hdigest, ⟨time, htime, hrange⟩, block, by simp, hstable⟩

/-- The digest of the parent determines the block that the parent references. -/
theorem Referenced.newProposal_eq {parent : Block p chain ε} {node : Node p chain ε} {slot : ℕ}
    (h : Referenced slotDuration blocks parent)
    (hproposal : newProposal parent.header node.source slot slotDuration = .ok provider) :
    ∃ time fresh, timestamp slot slotDuration = some time ∧ node.Stable fresh ∧
      InAllowableRange p time fresh ∧
      provider.mcBlock =
        if parent.reference.number ≤ fresh.number then fresh else parent.reference := by
  obtain ⟨time, fresh, htime, hstable, hrange, hcases⟩ := node.newProposal_cases hproposal
  rw [h.digest] at hcases
  rcases hcases with ⟨_, herror, -⟩ | ⟨block, hhash, hmem, heq⟩
  · cases herror
  · obtain rfl : block = parent.reference :=
      chain.hash_injective _ hmem _ h.mem (Except.ok.inj hhash).symm
    exact ⟨time, fresh, htime, hstable, hrange, heq⟩

/-- What one proposal establishes about its own reference. -/
theorem referenced_propose {before logs after : List DigestItem}
    (hgenesis : valueFromDigest genesis.logs = .error .missing)
    (hparent : ∀ parent, blocks.getLast? = some parent →
      Referenced slotDuration blocks parent)
    (hslot : ∀ slot, parentSlot blocks = some slot → slot < block.slot)
    (hproposal : newProposal (parentHeader genesis blocks) block.producer.source block.slot
      slotDuration = .ok provider)
    (href : block.reference = provider.mcBlock)
    (hbefore : ∀ data, DigestItem.preRuntime mcHashDigestId data ∉ before)
    (hlogs : proposeLogs before provider.provideInherentData = .ok logs)
    (hheader : block.header = ⟨logs ++ after⟩) :
    Referenced slotDuration (blocks ++ [block]) block ∧
      ∀ parent, blocks.getLast? = some parent →
        parent.reference.number ≤ block.reference.number := by
  have hdigest : valueFromDigest block.header.logs = .ok block.reference.hash := by
    rw [hheader, href]
    exact valueFromDigest_of_proposeLogs hbefore hlogs
  cases hlast : blocks.getLast? with
  | none =>
      have hheader : parentHeader genesis blocks = genesis := by
        simp [parentHeader, hlast]
      rw [hheader] at hproposal
      obtain ⟨time, fresh, htime, hstable, hrange, hcases⟩ :=
        block.producer.newProposal_cases hproposal
      rcases hcases with ⟨_, -, heq⟩ | ⟨_, hok, -⟩
      · obtain rfl := href.trans heq
        exact ⟨.of_stable hdigest htime hrange hstable, fun _ h => by cases h⟩
      · rw [hgenesis] at hok
        cases hok
  | some parent =>
      have hreferenced := hparent parent hlast
      have hheader : parentHeader genesis blocks = parent.header := by
        simp [parentHeader, hlast]
      rw [hheader] at hproposal
      obtain ⟨time, fresh, htime, hstable, hrange, heq⟩ := hreferenced.newProposal_eq hproposal
      rw [← href] at heq
      by_cases hle : parent.reference.number ≤ fresh.number
      · rw [if_pos hle] at heq
        subst heq
        refine ⟨.of_stable hdigest htime hrange hstable, fun _ h => ?_⟩
        obtain rfl := Option.some.inj h
        exact hle
      · rw [if_neg hle] at heq
        have hfreshmem : fresh ∈ chain.blocks :=
          block.producer.known_mem _ (block.producer.stable_known _ hstable)
        have horder : fresh.timestamp ≤ parent.reference.timestamp :=
          chain.timestamps_monotone _ hfreshmem _ hreferenced.mem (Nat.le_of_not_ge hle)
        refine ⟨hreferenced.reuse hdigest heq (hslot _ (by simp [parentSlot, hlast])) htime
          hrange horder, fun _ h => ?_⟩
        obtain rfl := Option.some.inj h
        rw [heq]

/-- The invariant of produced chains. -/
structure ReferencesOrdered (slotDuration : ℕ) (blocks : List (Block p chain ε)) : Prop where
  last : ∀ block, blocks.getLast? = some block → Referenced slotDuration blocks block
  ordered : (blocks.map (·.reference.number)).Pairwise (· ≤ ·)

theorem Produced.referencesOrdered (hgenesis : valueFromDigest genesis.logs = .error .missing)
    (h : Produced slotDuration genesis blocks) :
    ReferencesOrdered slotDuration blocks := by
  induction h with
  | genesis => exact ⟨by simp, by simp⟩
  | @propose blocks block provider before logs after _ hslot hproposal href hbefore hlogs
      hheader ih =>
      obtain ⟨hreferenced, hnumber⟩ := referenced_propose hgenesis ih.last hslot hproposal
        href hbefore hlogs hheader
      refine ⟨fun last hlast => ?_, ?_⟩
      · obtain rfl : block = last := by simpa using hlast
        exact hreferenced
      · rw [List.map_append, List.pairwise_append]
        refine ⟨ih.ordered, by simp, fun number hmem number' hmem' => ?_⟩
        obtain rfl : number' = block.reference.number := by simpa using hmem'
        -- the last reference is the highest so far
        obtain ⟨earlier, hearlier, rfl⟩ := List.mem_map.mp hmem
        obtain ⟨last, hlast⟩ : ∃ last, blocks.getLast? = some last :=
          ⟨_, List.getLast?_eq_some_getLast (List.ne_nil_of_mem hearlier)⟩
        have hle : earlier.reference.number ≤ last.reference.number := by
          obtain ⟨init, rfl⟩ := List.getLast?_eq_some_iff.mp hlast
          rcases List.mem_append.mp hearlier with hinit | hsingle
          · have hordered := ih.ordered
            rw [List.map_append, List.pairwise_append] at hordered
            exact hordered.2.2 _ (List.mem_map_of_mem hinit) _ (by simp)
          · rw [List.mem_singleton.mp hsingle]
        exact hle.trans (hnumber last hlast)

theorem Produced.of_append {blocks rest : List (Block p chain ε)}
    (h : Produced slotDuration genesis (blocks ++ rest)) :
    Produced slotDuration genesis blocks := by
  induction rest using List.reverseRecOn with
  | nil => simpa using h
  | append_singleton rest block ih =>
      refine ih ?_
      rw [← List.append_assoc] at h
      generalize hall : blocks ++ rest ++ [block] = all at h
      cases h with
      | genesis => simp at hall
      | propose hprevious =>
          obtain ⟨rfl, -⟩ := List.append_inj' hall rfl
          exact hprevious

/-- A node that counts both references as stable accepts the block on its parent. -/
theorem newVerification_of_referenced {verifier : Node p chain ε}
    (hblock : Referenced slotDuration (blocks ++ [block]) block)
    (hparent : ∀ parent, blocks.getLast? = some parent →
      Referenced slotDuration blocks parent ∧
        parent.reference.number ≤ block.reference.number)
    (hview : ∀ b ∈ blocks ++ [block], ∀ reference,
      b.producer.Stable reference → verifier.Stable reference) :
    newVerification (parentHeader genesis blocks) (parentSlot blocks) block.slot
        block.reference.hash slotDuration verifier.source =
      .ok ⟨block.reference, blocks.getLast?.map (·.reference)⟩ := by
  obtain ⟨time, htime, hrange⟩ := hblock.in_range
  obtain ⟨ancestor, hancestor, hstable⟩ := hblock.stable
  have hreference := verifier.getMcStateReference_of_stable htime
    (hview ancestor hancestor _ hstable) hrange
  unfold newVerification
  rw [hreference]
  cases hlast : blocks.getLast? with
  | none => simp [parentSlot, hlast]
  | some parent =>
      obtain ⟨hreferenced, hnumber⟩ := hparent parent hlast
      obtain ⟨ptime, hptime, hprange⟩ := hreferenced.in_range
      obtain ⟨pancestor, hpancestor, hpstable⟩ := hreferenced.stable
      have hparentReference := verifier.getMcStateReference_of_stable hptime
        (hview pancestor (List.mem_append_left _ hpancestor) _ hpstable) hprange
      simp [parentSlot, parentHeader, hlast, hreferenced.digest,
        hparentReference, Nat.not_lt.mpr hnumber]

/-- References made by `newProposal` never go back, lie in the allowable range of their own
slot, and are accepted by every node that has seen the stable blocks of the producers. -/
theorem proposed_references_accepted
    (hgenesis : valueFromDigest genesis.logs = .error .missing)
    {blocks : List (Block p chain ε)} (produced : Produced slotDuration genesis blocks) :
    (blocks.map (·.reference.number)).Pairwise (· ≤ ·) ∧
      (∀ block ∈ blocks, ∃ time, timestamp block.slot slotDuration = some time ∧
        InAllowableRange p time block.reference) ∧
      ∀ before block after, blocks = before ++ block :: after →
        ∀ verifier : Node p chain ε,
          (∀ b ∈ before ++ [block], ∀ reference,
            b.producer.Stable reference → verifier.Stable reference) →
          valueFromDigest block.header.logs = .ok block.reference.hash ∧
            newVerification (parentHeader genesis before) (parentSlot before) block.slot
                block.reference.hash slotDuration verifier.source =
              .ok ⟨block.reference, before.getLast?.map (·.reference)⟩ := by
  have hcut {before after : List (Block p chain ε)} {block : Block p chain ε}
      (hsplit : blocks = before ++ block :: after) :
      ReferencesOrdered slotDuration before ∧
        ReferencesOrdered slotDuration (before ++ [block]) := by
    rw [List.append_cons] at hsplit
    have hproduced : Produced slotDuration genesis (before ++ [block]) :=
      Produced.of_append (hsplit ▸ produced)
    exact ⟨hproduced.of_append.referencesOrdered hgenesis,
      hproduced.referencesOrdered hgenesis⟩
  refine ⟨(produced.referencesOrdered hgenesis).ordered, fun block hmem => ?_, ?_⟩
  · obtain ⟨before, after, hsplit⟩ := List.append_of_mem hmem
    exact ((hcut hsplit).2.last block (by simp)).in_range
  · intro before block after hsplit verifier hview
    obtain ⟨hbefore, hwith⟩ := hcut hsplit
    have hreferenced := hwith.last block (by simp)
    refine ⟨hreferenced.digest, newVerification_of_referenced hreferenced ?_ hview⟩
    intro parent hlast
    refine ⟨hbefore.last parent hlast, ?_⟩
    have hordered := hwith.ordered
    rw [List.map_append, List.pairwise_append] at hordered
    exact hordered.2.2 _ (List.mem_map_of_mem (List.mem_of_getLast? hlast)) _ (by simp)

end Chain

/-- The second producer does not count the reference of the first one as stable yet, and reuses it.
Slots have a second. -/
theorem proposed_references_accepted_reused :
    let p : StabilityParameters := ⟨2, 1⟩
    let older : MainchainBlock := ⟨10, Bytes.filled 32 7, 1, 1000, 1000⟩
    let newer : MainchainBlock := ⟨11, Bytes.filled 32 8, 1, 1001, 1001⟩
    let chain : MainChain := ⟨[older, newer], by decide, by decide, by decide⟩
    let header : Header := ⟨fromMcBlockHash newer.hash⟩
    let first : Block p chain Unit := ⟨nodeUpTo p chain 11, 1003, header, newer⟩
    let second : Block p chain Unit := ⟨nodeUpTo p chain 10, 1004, header, newer⟩
    Produced 1000 ⟨[]⟩ [first, second] ∧
      newVerification header (some 1003) 1004 newer.hash 1000 (nodeUpTo p chain 11).source =
        .ok ⟨newer, some newer⟩ := by
  intro p older newer chain header first second
  have hfirst : newProposal ⟨[]⟩ first.producer.source 1003 1000 = .ok ⟨newer, none⟩ := by
    decide +kernel
  have hsecond : newProposal header second.producer.source 1004 1000 =
      .ok ⟨newer, some newer⟩ := by
    decide +kernel
  have produced : Produced 1000 ⟨[]⟩ [first] :=
    .propose .genesis (by simp [parentSlot]) hfirst rfl (fun _ => List.not_mem_nil)
      rfl (show first.header = ⟨_ ++ []⟩ from rfl)
  have produced : Produced 1000 ⟨[]⟩ [first, second] :=
    .propose produced (by decide) hsecond rfl (fun _ => List.not_mem_nil)
      rfl (show second.header = ⟨_ ++ []⟩ from rfl)
  have hview : ∀ b ∈ [first, second], ∀ reference, b.producer.Stable reference →
      (nodeUpTo p chain 11).Stable reference := by
    intro b hb reference hstable
    rcases List.mem_pair.mp hb with rfl | rfl
    · exact hstable
    · exact ⟨hstable.1, hstable.2.trans (Nat.le_succ 10)⟩
  exact ⟨produced, ((proposed_references_accepted rfl produced).2.2 [first] second [] rfl
    (nodeUpTo p chain 11) hview).2⟩

end PartnerChains.McHash
