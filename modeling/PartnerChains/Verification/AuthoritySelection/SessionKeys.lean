import PartnerChains.Algorithm.PermissionedCandidates

/-!
# Session keys are those the candidate published

The published keys are put one behind the other and cut up again by the lengths of the session
key type. The cuts are where the keys were joined only if every key has its length.
-/

namespace PartnerChains.AuthoritySelection

open PermissionedCandidates (find)

variable {AccountId : Type}

/-! ## Joining the published keys -/

def findOrEmpty (keys : CandidateKeys) (id : KeyTypeId) : ByteString :=
  (find keys id).getD []

theorem find_eq_map (keys : CandidateKeys) (id : KeyTypeId) :
    find keys id = (keys.find? fun key => key.id = id).map (·.bytes) := by
  unfold find
  induction keys with
  | nil => rfl
  | cons key keys ih => by_cases h : key.id = id <;> simp [h, ih]

variable {keys : CandidateKeys}

theorem appendKey_eq_some_iff {front encoded : ByteString} {id : KeyTypeId} :
    appendKey keys front id = some encoded ↔
      (find keys id).isSome ∧ encoded = front ++ findOrEmpty keys id ∧
        encoded.length ≤ encodedKeysBound := by
  unfold appendKey findOrEmpty
  rw [find_eq_map]
  cases keys.find? fun key => key.id = id with
  | none => simp
  | some key =>
      by_cases h : front.length + key.bytes.length ≤ encodedKeysBound
      · simp only [Option.bind_eq_bind, Option.bind_some, if_pos h, Option.some.injEq,
          Option.map_some, Option.isSome_some, Option.getD_some, true_and]
        constructor
        · rintro rfl
          simpa using h
        · intro hencoded
          exact hencoded.1.symm
      · simp only [Option.bind_eq_bind, Option.bind_some, if_neg h, Option.map_some,
          Option.isSome_some, Option.getD_some, true_and]
        constructor
        · intro hnone
          cases hnone
        · rintro ⟨rfl, hlength⟩
          rw [List.length_append] at hlength
          exact absurd hlength h

/-- The loop succeeds when every required key is published and all of them together respect
the bound; it then has joined them. -/
theorem foldlM_appendKey_eq_some_iff {ids : List KeyTypeId} {front encoded : ByteString}
    (hfront : front.length ≤ encodedKeysBound) :
    ids.foldlM (appendKey keys) front = some encoded ↔
      (∀ id ∈ ids, (find keys id).isSome) ∧ encoded = front ++ ids.flatMap (findOrEmpty keys) ∧
        encoded.length ≤ encodedKeysBound := by
  induction ids generalizing front with
  | nil =>
      simp only [List.foldlM_nil, Option.pure_def, Option.some.injEq, List.not_mem_nil,
        false_implies, implies_true, List.flatMap_nil, List.append_nil, true_and]
      constructor
      · rintro rfl
        exact ⟨rfl, hfront⟩
      · intro h
        exact h.1.symm
  | cons id ids ih =>
      simp only [List.foldlM_cons, Option.bind_eq_bind, Option.bind_eq_some_iff,
        List.forall_mem_cons, List.flatMap_cons]
      constructor
      · rintro ⟨next, hnext, hrest⟩
        obtain ⟨hid, rfl, hlength⟩ := appendKey_eq_some_iff.mp hnext
        obtain ⟨hids, rfl, hbound⟩ := (ih hlength).mp hrest
        exact ⟨⟨hid, hids⟩, by rw [List.append_assoc], hbound⟩
      · rintro ⟨⟨hid, hids⟩, rfl, hbound⟩
        have hlength : (front ++ findOrEmpty keys id).length ≤ encodedKeysBound := by
          simp only [List.length_append] at hbound ⊢
          omega
        refine ⟨front ++ findOrEmpty keys id, appendKey_eq_some_iff.mpr ⟨hid, rfl, hlength⟩, ?_⟩
        exact (ih hlength).mpr ⟨hids, by rw [List.append_assoc], hbound⟩

/-! ## Cutting them up -/

def SessionKeyFields.length (fields : SessionKeyFields) : ℕ := (fields.map Prod.snd).sum

variable {fields : SessionKeyFields}

theorem decodeSessionKeys_isSome_iff {input : ByteString} :
    (decodeSessionKeys fields input).isSome ↔ fields.length ≤ input.length := by
  induction fields generalizing input with
  | nil => simp [decodeSessionKeys, SessionKeyFields.length]
  | cons field fields ih =>
      obtain ⟨id, length⟩ := field
      simp only [SessionKeyFields.length] at ih
      by_cases h : length ≤ input.length
      · simp only [decodeSessionKeys, if_pos h, Option.isSome_map, ih, List.length_drop,
          SessionKeyFields.length, List.map_cons, List.sum_cons]
        omega
      · simp only [decodeSessionKeys, if_neg h, Option.isSome_none, SessionKeyFields.length,
          List.map_cons, List.sum_cons]
        constructor
        · intro hfalse
          cases hfalse
        · intro hlength
          omega

/-- Keys that have their lengths are cut where they were joined. -/
theorem decodeSessionKeys_flatMap {bytes : KeyTypeId → ByteString}
    (h : ∀ field ∈ fields, (bytes field.1).length = field.2) :
    decodeSessionKeys fields ((fields.map Prod.fst).flatMap bytes) =
      some (fields.map fun field => (field.1, bytes field.1)) := by
  induction fields with
  | nil => rfl
  | cons field fields ih =>
      obtain ⟨id, length⟩ := field
      have hlength : (bytes id).length = length := h (id, length) List.mem_cons_self
      have hrest := ih fun other hother => h other (List.mem_cons_of_mem _ hother)
      subst hlength
      simp [decodeSessionKeys, hrest]

/-! ## Faithful extraction -/

/-- Session keys are those published under their identifiers, and there are none when a required
key is missing or has another length. -/
structure Faithful (runtime : Runtime AccountId SessionKeys) (fields : SessionKeyFields)
    (keys : CandidateKeys) : Prop where
  published : ∀ sessionKeys, maybeFrom (runtime.withSessionKeys fields) keys = some sessionKeys →
    sessionKeys.map Prod.fst = fields.map Prod.fst ∧
      ∀ key ∈ sessionKeys, find keys key.1 = some key.2
  refused : (∃ field ∈ fields, ∀ bytes, find keys field.1 = some bytes → bytes.length ≠ field.2) →
    maybeFrom (runtime.withSessionKeys fields) keys = none

/-- A required key is missing, or every required key has its length, or together they have too
few bytes for the session keys or too many for the buffer. -/
def Unshifted (fields : SessionKeyFields) (keys : CandidateKeys) : Prop :=
  (∃ field ∈ fields, find keys field.1 = none) ∨
  (∀ field ∈ fields, (findOrEmpty keys field.1).length = field.2) ∨
  (fields.map fun field => (findOrEmpty keys field.1).length).sum < fields.length ∨
  encodedKeysBound < (fields.map fun field => (findOrEmpty keys field.1).length).sum

theorem length_joined (fields : SessionKeyFields) (keys : CandidateKeys) :
    ((fields.map Prod.fst).flatMap (findOrEmpty keys)).length =
      (fields.map fun field => (findOrEmpty keys field.1).length).sum := by
  rw [List.length_flatMap, List.map_map]
  rfl

variable {runtime : Runtime AccountId SessionKeys}

theorem maybeFrom_eq_some_iff {sessionKeys : SessionKeys} :
    maybeFrom (runtime.withSessionKeys fields) keys = some sessionKeys ↔
      (∀ field ∈ fields, (find keys field.1).isSome) ∧
      (fields.map fun field => (findOrEmpty keys field.1).length).sum ≤ encodedKeysBound ∧
      decodeSessionKeys fields ((fields.map Prod.fst).flatMap (findOrEmpty keys)) =
        some sessionKeys := by
  have hempty : ([] : ByteString).length ≤ encodedKeysBound := Nat.zero_le _
  simp only [maybeFrom, Runtime.withSessionKeys, Option.bind_eq_bind, Option.bind_eq_some_iff,
    foldlM_appendKey_eq_some_iff hempty, List.nil_append, List.forall_mem_map]
  constructor
  · rintro ⟨encoded, ⟨hpublished, rfl, hbound⟩, hdecode⟩
    exact ⟨hpublished, length_joined fields keys ▸ hbound, hdecode⟩
  · rintro ⟨hpublished, hbound, hdecode⟩
    exact ⟨_, ⟨hpublished, rfl, length_joined fields keys ▸ hbound⟩, hdecode⟩

/-- Session keys are extracted exactly when every required key is published and all together
have enough bytes, but not too many. -/
theorem maybeFrom_isSome_iff :
    (maybeFrom (runtime.withSessionKeys fields) keys).isSome ↔
      (∀ field ∈ fields, (find keys field.1).isSome) ∧
      fields.length ≤ (fields.map fun field => (findOrEmpty keys field.1).length).sum ∧
      (fields.map fun field => (findOrEmpty keys field.1).length).sum ≤ encodedKeysBound := by
  simp only [Option.isSome_iff_exists, maybeFrom_eq_some_iff]
  rw [← length_joined, ← decodeSessionKeys_isSome_iff, Option.isSome_iff_exists]
  tauto

theorem eq_some_findOrEmpty {id : KeyTypeId} (h : (find keys id).isSome) :
    find keys id = some (findOrEmpty keys id) := by
  obtain ⟨bytes, hbytes⟩ := Option.isSome_iff_exists.mp h
  rw [findOrEmpty, hbytes, Option.getD_some]

/-- Keys of the right lengths are extracted as they were published. -/
theorem Faithful.of_lengths (runtime : Runtime AccountId SessionKeys)
    (hlength : ∀ field ∈ fields, (findOrEmpty keys field.1).length = field.2) :
    Faithful runtime fields keys := by
  constructor
  · intro sessionKeys h
    obtain ⟨hpublished, -, hdecode⟩ := maybeFrom_eq_some_iff.mp h
    rw [decodeSessionKeys_flatMap hlength] at hdecode
    obtain rfl := Option.some.inj hdecode
    constructor
    · rw [List.map_map]
      rfl
    · simp only [List.forall_mem_map]
      intro field hfield
      exact eq_some_findOrEmpty (hpublished field hfield)
  · intro h
    obtain ⟨field, hfield, hwrong⟩ := h
    apply Option.not_isSome_iff_eq_none.mp
    intro hsome
    have hpublished := (maybeFrom_isSome_iff.mp hsome).1 field hfield
    exact hwrong _ (eq_some_findOrEmpty hpublished) (hlength field hfield)

theorem Faithful.of_eq_none (h : ¬ (maybeFrom (runtime.withSessionKeys fields) keys).isSome) :
    Faithful runtime fields keys := by
  have hnone := Option.not_isSome_iff_eq_none.mp h
  refine ⟨?_, fun _ => hnone⟩
  intro sessionKeys hsome
  rw [hnone] at hsome
  cases hsome

/-- Extraction is faithful exactly when the joined keys are not cut in other places than where
they were joined. -/
theorem faithful_iff_unshifted (runtime : Runtime AccountId SessionKeys)
    (fields : SessionKeyFields) (keys : CandidateKeys) :
    Faithful runtime fields keys ↔ Unshifted fields keys := by
  constructor
  · intro h
    by_cases hmissing : ∃ field ∈ fields, find keys field.1 = none
    · exact .inl hmissing
    by_cases hlength : ∀ field ∈ fields, (findOrEmpty keys field.1).length = field.2
    · exact .inr (.inl hlength)
    -- a key of another length is refused only because of the length of all keys together
    push Not at hmissing hlength
    obtain ⟨wrong, hwrong, hne⟩ := hlength
    have hnone := h.refused ⟨wrong, hwrong, by
      intro bytes hbytes
      rwa [findOrEmpty, hbytes] at hne⟩
    have hsome : ¬ (maybeFrom (runtime.withSessionKeys fields) keys).isSome := by simp [hnone]
    rw [maybeFrom_isSome_iff] at hsome
    have hpublished : ∀ field ∈ fields, (find keys field.1).isSome := by
      intro field hfield
      exact Option.isSome_iff_ne_none.mpr (hmissing field hfield)
    refine .inr (.inr ?_)
    by_contra hbounds
    push Not at hbounds
    exact hsome ⟨hpublished, hbounds⟩
  · intro h
    rcases h with hmissing | hlength | hshort | hlong
    · obtain ⟨field, hfield, hnone⟩ := hmissing
      apply Faithful.of_eq_none
      intro hsome
      have hpublished := (maybeFrom_isSome_iff.mp hsome).1 field hfield
      rw [hnone] at hpublished
      cases hpublished
    · exact Faithful.of_lengths runtime hlength
    · apply Faithful.of_eq_none
      intro hsome
      have hbound := (maybeFrom_isSome_iff.mp hsome).2.1
      omega
    · apply Faithful.of_eq_none
      intro hsome
      have hbound := (maybeFrom_isSome_iff.mp hsome).2.2
      omega

/-! ### An ECDSA key in the place of the Aura key -/

def plainRuntime : Runtime Unit SessionKeys where
  accountId _ := ()
  keyIds := []
  decode _ := none
  ed25519Verify _ _ _ := true
  ecdsaVerify _ _ _ := true

def auraGrandpaFields : SessionKeyFields := [(auraKeyTypeId, 32), (grandpaKeyTypeId, 32)]

def ecdsaAsAura : CandidateKeys :=
  [⟨auraKeyTypeId, List.replicate 33 1⟩, ⟨grandpaKeyTypeId, List.replicate 32 2⟩]

/-- The last byte of the long key becomes the first byte of the next one. -/
theorem long_key_shifts_the_next :
    maybeFrom (plainRuntime.withSessionKeys auraGrandpaFields) ecdsaAsAura =
        some [(auraKeyTypeId, List.replicate 32 1),
          (grandpaKeyTypeId, 1 :: List.replicate 31 2)] ∧
      find ecdsaAsAura grandpaKeyTypeId = some (List.replicate 32 2) ∧
      ¬ Faithful plainRuntime auraGrandpaFields ecdsaAsAura := by
  have hkeys : maybeFrom (plainRuntime.withSessionKeys auraGrandpaFields) ecdsaAsAura =
      some [(auraKeyTypeId, List.replicate 32 1),
        (grandpaKeyTypeId, 1 :: List.replicate 31 2)] := by decide
  have hpublished : find ecdsaAsAura grandpaKeyTypeId = some (List.replicate 32 2) := by decide
  refine ⟨hkeys, hpublished, ?_⟩
  intro h
  have hgrandpa := (h.published _ hkeys).2 (grandpaKeyTypeId, 1 :: List.replicate 31 2) (by simp)
  rw [hpublished] at hgrandpa
  exact absurd hgrandpa (by decide)

end PartnerChains.AuthoritySelection
