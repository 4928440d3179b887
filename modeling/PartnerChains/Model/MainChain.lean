import PartnerChains.Algorithm.McHash

/-!
# The main chain as its observers see it

A node has seen some blocks of the main chain and counts some of them as stable. Its data
source answers as documented for that view.
-/

namespace PartnerChains.McHash

/-- The main chain, oldest block first. -/
structure MainChain where
  blocks : List MainchainBlock
  numbers_increase : blocks.Pairwise (fun a b => a.number < b.number)
  timestamps_monotone : ∀ a ∈ blocks, ∀ b ∈ blocks,
    a.number ≤ b.number → a.timestamp ≤ b.timestamp
  hash_injective : ∀ a ∈ blocks, ∀ b ∈ blocks, a.hash = b.hash → a = b

/-- The Cardano parameters `k` and `f`. -/
structure StabilityParameters where
  securityParameter : ℕ
  activeSlotCoeff : ℚ

/-- The documented `allowable_range(reference_timestamp)`: from `3k/f` to `k/f` seconds before
the reference timestamp. -/
def InAllowableRange (p : StabilityParameters) (reference : Timestamp)
    (block : MainchainBlock) : Prop :=
  (reference : ℚ) - 1000 * (3 * p.securityParameter / p.activeSlotCoeff) ≤
      1000 * block.timestamp ∧
    1000 * (block.timestamp : ℚ) ≤
      reference - 1000 * (p.securityParameter / p.activeSlotCoeff)

/-- A node that has seen part of the main chain, with a data source that meets its contract. -/
structure Node (p : StabilityParameters) (chain : MainChain) (ε : Type) where
  source : McHashDataSource ε
  Stable : MainchainBlock → Prop
  Known : MainchainBlock → Prop
  stable_known : ∀ block, Stable block → Known block
  known_mem : ∀ block, Known block → block ∈ chain.blocks
  /-- The latest stable block in the range, when there is one. -/
  latest_stable : ∀ reference, ∃ answer,
    source.getLatestStableBlockFor reference = .ok answer ∧
      (∀ block, answer = some block →
        Stable block ∧ InAllowableRange p reference block ∧
          ∀ other, Stable other → InAllowableRange p reference other →
            other.number ≤ block.number) ∧
      (answer = none → ∀ other, Stable other → ¬ InAllowableRange p reference other)
  stable_for : ∀ hash reference, ∃ answer,
    source.getStableBlockFor hash reference = .ok answer ∧
      ∀ block, answer = some block ↔
        Stable block ∧ block.hash = hash ∧ InAllowableRange p reference block
  by_hash : ∀ hash, ∃ answer, source.getBlockByHash hash = .ok answer ∧
    ∀ block, answer = some block ↔ Known block ∧ block.hash = hash

instance (p : StabilityParameters) (reference : Timestamp) (block : MainchainBlock) :
    Decidable (InAllowableRange p reference block) :=
  inferInstanceAs (Decidable (_ ∧ _))

/-- The source of a node that has seen the whole main chain, and counts the blocks up to a number
as stable. -/
def sourceUpTo (p : StabilityParameters) (chain : MainChain) (stable : ℕ) :
    McHashDataSource Unit where
  getLatestStableBlockFor reference := .ok (chain.blocks.filter fun block =>
    block.number ≤ stable ∧ InAllowableRange p reference block).getLast?
  getStableBlockFor hash reference := .ok (chain.blocks.find? fun block =>
    block.hash = hash ∧ block.number ≤ stable ∧ InAllowableRange p reference block)
  getBlockByHash hash := .ok (chain.blocks.find? fun block => block.hash = hash)

theorem MainChain.find?_iff (chain : MainChain) (hash : McBlockHash)
    (P : MainchainBlock → Prop) [DecidablePred P] (block : MainchainBlock) :
    (chain.blocks.find? fun b => b.hash = hash ∧ P b) = some block ↔
      block ∈ chain.blocks ∧ block.hash = hash ∧ P block := by
  constructor
  · intro h
    have hsome := List.find?_some h
    simp only [decide_eq_true_eq] at hsome
    exact ⟨List.mem_of_find?_eq_some h, hsome⟩
  · rintro ⟨hmem, hhash, hP⟩
    cases hfind : chain.blocks.find? fun b => b.hash = hash ∧ P b with
    | none => exact absurd (List.find?_eq_none.mp hfind block hmem) (by simp [hhash, hP])
    | some found =>
        have hsome := List.find?_some hfind
        simp only [decide_eq_true_eq] at hsome
        rw [chain.hash_injective found (List.mem_of_find?_eq_some hfind) block hmem
          (hsome.1.trans hhash.symm)]

theorem MainChain.getLast?_filter (chain : MainChain) (P : MainchainBlock → Prop)
    [DecidablePred P] {block : MainchainBlock}
    (h : (chain.blocks.filter fun b => P b).getLast? = some block) :
    block ∈ chain.blocks ∧ P block ∧
      ∀ other ∈ chain.blocks, P other → other.number ≤ block.number := by
  have hmem := List.mem_of_getLast? h
  simp only [List.mem_filter, decide_eq_true_eq] at hmem
  refine ⟨hmem.1, hmem.2, fun other hother hP => ?_⟩
  have hordered : (chain.blocks.filter fun b => P b).Pairwise (fun a b => a.number < b.number) :=
    chain.numbers_increase.filter _
  obtain ⟨init, hinit⟩ := List.getLast?_eq_some_iff.mp h
  have hfiltered : other ∈ chain.blocks.filter fun b => P b := by simp [hother, hP]
  rw [hinit] at hfiltered hordered
  rcases List.mem_append.mp hfiltered with hin | hlast
  · exact ((List.pairwise_append.mp hordered).2.2 other hin block (by simp)).le
  · rw [List.mem_singleton.mp hlast]

/-- The contract can be met. -/
def nodeUpTo (p : StabilityParameters) (chain : MainChain) (stable : ℕ) : Node p chain Unit where
  source := sourceUpTo p chain stable
  Stable block := block ∈ chain.blocks ∧ block.number ≤ stable
  Known block := block ∈ chain.blocks
  stable_known _ h := h.1
  known_mem _ h := h
  latest_stable reference := by
    refine ⟨_, rfl, fun block h => ?_, ?_⟩
    · obtain ⟨hmem, ⟨hle, hrange⟩, hlatest⟩ := chain.getLast?_filter
        (fun block => block.number ≤ stable ∧ InAllowableRange p reference block) h
      exact ⟨⟨hmem, hle⟩, hrange, fun other hother hin => hlatest other hother.1 ⟨hother.2, hin⟩⟩
    · intro hnone other hother hrange
      rw [List.getLast?_eq_none_iff] at hnone
      exact List.filter_eq_nil_iff.mp hnone other hother.1 (decide_eq_true ⟨hother.2, hrange⟩)
  stable_for hash reference := by
    refine ⟨_, rfl, fun block => ?_⟩
    rw [chain.find?_iff hash fun block =>
      block.number ≤ stable ∧ InAllowableRange p reference block]
    tauto
  by_hash hash := by
    refine ⟨_, rfl, fun block => ?_⟩
    simpa using chain.find?_iff hash (fun _ => True) block

/-! ## Chains of proposals -/

/-- A Partner Chain block with the reference its producer selected. -/
structure Block (p : StabilityParameters) (chain : MainChain) (ε : Type) where
  producer : Node p chain ε
  slot : Slot
  header : Header
  reference : MainchainBlock

variable {p : StabilityParameters} {chain : MainChain} {ε : Type}

/-- The header on which the next block is built. -/
def parentHeader (genesis : Header) (blocks : List (Block p chain ε)) : Header :=
  (blocks.getLast?.map (·.header)).getD genesis

def parentSlot (blocks : List (Block p chain ε)) : Option Slot :=
  blocks.getLast?.map (·.slot)

/-- Partner Chain blocks, oldest first, whose slots increase and whose references come from
`newProposal`. The producer adds the reference to the digest items it has (none of which is
a reference); the items after it come from the runtime and the seal. -/
inductive Produced (slotDuration : ℕ) (genesis : Header) : List (Block p chain ε) → Prop
  | genesis : Produced slotDuration genesis []
  | propose {blocks : List (Block p chain ε)} {block : Block p chain ε}
      {provider : McHashInherentDataProvider} {before logs after : List DigestItem} :
      Produced slotDuration genesis blocks →
      (∀ slot, parentSlot blocks = some slot → slot < block.slot) →
      newProposal (parentHeader genesis blocks) block.producer.source block.slot
        slotDuration = .ok provider →
      block.reference = provider.mcBlock →
      (∀ data, DigestItem.preRuntime mcHashDigestId data ∉ before) →
      proposeLogs before provider.provideInherentData = .ok logs →
      block.header = ⟨logs ++ after⟩ →
      Produced slotDuration genesis (blocks ++ [block])

end PartnerChains.McHash
