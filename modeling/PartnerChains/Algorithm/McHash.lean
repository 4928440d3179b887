import PartnerChains.Algorithm.Domain

/-!
# References to the main chain

Each Partner Chain block names a stable main chain block in its digest. The proposer
selects it, and every importing node verifies it against the parent's reference.
-/

namespace PartnerChains.McHash

/-! ## Slots -/

abbrev Slot := ℕ

/-- Milliseconds since the UNIX epoch. -/
abbrev Timestamp := ℕ

/-- The start of a slot, unless it is beyond 64 bits. -/
def timestamp (slot : Slot) (slotDuration : ℕ) : Option Timestamp :=
  if slotDuration * slot < 2 ^ 64 then some (slotDuration * slot) else none

/-! ## The digest item -/

inductive DigestItem where
  | preRuntime (id : Bytes 4) (data : ByteString)
  | consensus (id : Bytes 4) (data : ByteString)
  | seal (id : Bytes 4) (data : ByteString)
  | other (data : ByteString)
  | runtimeEnvironmentUpdated
  deriving DecidableEq

def mcHashDigestId : Bytes 4 := ⟨[0x6d, 0x63, 0x73, 0x68], rfl⟩

inductive DigestError where
  | invalidMcHash (data : ByteString)
  | missing
  deriving DecidableEq

def fromMcBlockHash (mcBlockHash : McBlockHash) : List DigestItem :=
  [.preRuntime mcHashDigestId mcBlockHash.val]

inductive InherentDigestError where
  | notDecoded
  | missing
  deriving DecidableEq

def fromInherentData (data : InherentSlot McBlockHash) :
    Except InherentDigestError (List DigestItem) :=
  match data with
  | .error _ => .error .notDecoded
  | .ok none => .error .missing
  | .ok (some mcHash) => .ok (fromMcBlockHash mcHash)

/-- The first item under the identifier decides, whatever follows it. -/
def valueFromDigest : List DigestItem → Except DigestError McBlockHash
  | [] => .error .missing
  | .preRuntime id data :: rest =>
      if id = mcHashDigestId then
        match Bytes.tryFrom 32 data with
        | some hash => .ok hash
        | none => .error (.invalidMcHash data)
      else valueFromDigest rest
  | _ :: rest => valueFromDigest rest

structure Header where
  logs : List DigestItem
  deriving DecidableEq

def proposeLogs (inherentDigests : List DigestItem) (data : InherentSlot McBlockHash) :
    Except Panic (List DigestItem) :=
  match fromInherentData data with
  | .error _ => .error ⟨"InherentDigest can be created from inherent data"⟩
  | .ok inherentLogs => .ok (inherentDigests ++ inherentLogs)

/-! ## The inherent data provider -/

structure McHashDataSource (ε : Type) where
  getLatestStableBlockFor : Timestamp → Except ε (Option MainchainBlock)
  getStableBlockFor : McBlockHash → Timestamp → Except ε (Option MainchainBlock)
  getBlockByHash : McBlockHash → Except ε (Option MainchainBlock)

structure McHashInherentDataProvider where
  mcBlock : MainchainBlock
  previousMcBlock : Option MainchainBlock
  deriving DecidableEq

inductive McHashInherentError (ε : Type) where
  | dataSourceError (error : ε)
  | stableBlockNotFound (timestamp : Timestamp)
  | slotTooBig
  | mcStateReferenceInvalid (hash : McBlockHash) (slot : Slot) (timestamp : Timestamp)
  | mcStateReferenceRegressed (hash : McBlockHash) (slot : Slot)
      (number parentNumber : McBlockNumber)
  | digestError (error : DigestError)
  | stableBlockNotFoundByHash (hash : McBlockHash)
  deriving DecidableEq

variable {ε : Type}

/-- A data source answer that has to be there. -/
def expectFound (missing : McHashInherentError ε) :
    Except ε (Option MainchainBlock) → Except (McHashInherentError ε) MainchainBlock
  | .error error => .error (.dataSourceError error)
  | .ok none => .error missing
  | .ok (some block) => .ok block

def newProposal (parentHeader : Header) (dataSource : McHashDataSource ε) (slot : Slot)
    (slotDuration : ℕ) : Except (McHashInherentError ε) McHashInherentDataProvider :=
  match timestamp slot slotDuration with
  | none => .error .slotTooBig
  | some slotStartTimestamp => do
      let mcBlock ← expectFound (.stableBlockNotFound slotStartTimestamp)
        (dataSource.getLatestStableBlockFor slotStartTimestamp)
      match valueFromDigest parentHeader.logs with
      | .ok parentMcHash => do
          let parentStableMcBlock ← expectFound (.stableBlockNotFoundByHash parentMcHash)
            (dataSource.getBlockByHash parentMcHash)
          if mcBlock.number ≥ parentStableMcBlock.number then
            .ok ⟨mcBlock, some parentStableMcBlock⟩
          else .ok ⟨parentStableMcBlock, some parentStableMcBlock⟩
      | .error _ => .ok ⟨mcBlock, none⟩

def getMcStateReference (verifiedBlockSlot : Slot) (verifiedBlockMcHash : McBlockHash)
    (slotDuration : ℕ) (dataSource : McHashDataSource ε) :
    Except (McHashInherentError ε) MainchainBlock :=
  match timestamp verifiedBlockSlot slotDuration with
  | none => .error .slotTooBig
  | some time =>
      expectFound (.mcStateReferenceInvalid verifiedBlockMcHash verifiedBlockSlot time)
        (dataSource.getStableBlockFor verifiedBlockMcHash time)

def newVerification (parentHeader : Header) (parentSlot : Option Slot)
    (verifiedBlockSlot : Slot) (mcStateReferenceHash : McBlockHash) (slotDuration : ℕ)
    (blockSource : McHashDataSource ε) :
    Except (McHashInherentError ε) McHashInherentDataProvider := do
  let mcStateReferenceBlock ←
    getMcStateReference verifiedBlockSlot mcStateReferenceHash slotDuration blockSource
  match parentSlot with
  | none => .ok ⟨mcStateReferenceBlock, none⟩
  | some parentSlot =>
      match valueFromDigest parentHeader.logs with
      | .error error => .error (.digestError error)
      | .ok parentMcHash => do
          let parentMcStateReferenceBlock ←
            getMcStateReference parentSlot parentMcHash slotDuration blockSource
          if mcStateReferenceBlock.number < parentMcStateReferenceBlock.number then
            .error (.mcStateReferenceRegressed mcStateReferenceHash verifiedBlockSlot
              mcStateReferenceBlock.number parentMcStateReferenceBlock.number)
          else .ok ⟨mcStateReferenceBlock, some parentMcStateReferenceBlock⟩

/-- The provider puts the hash of its reference in the inherent data. -/
def McHashInherentDataProvider.provideInherentData (provider : McHashInherentDataProvider) :
    InherentSlot McBlockHash :=
  .ok (some provider.mcBlock.hash)

end PartnerChains.McHash
