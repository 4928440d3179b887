import Mathlib

/-!
# Relational queries over lists of rows

A query result with an `ORDER BY` clause is any arrangement of its rows that is sorted by
the key: what the database does with equal keys is left open.
-/

namespace PartnerChains.Relational

/-! ## Joins -/

/-- The matches of one left row, or a single null row when there are none. -/
def leftJoin {β : Type*} (rows : List β) (on : β → Bool) : List (Option β) :=
  match rows.filter on with
  | [] => [none]
  | row :: matched => (row :: matched).map some

theorem some_mem_leftJoin {β : Type*} {rows : List β} {on : β → Bool} {row : β} :
    some row ∈ leftJoin rows on ↔ row ∈ rows ∧ on row = true := by
  rw [← List.mem_filter]
  unfold leftJoin
  cases rows.filter on <;> simp

theorem none_mem_leftJoin {β : Type*} {rows : List β} {on : β → Bool} :
    none ∈ leftJoin rows on ↔ ∀ row ∈ rows, on row = false := by
  have hnil : rows.filter on = [] ↔ ∀ row ∈ rows, on row = false := by
    simp [List.filter_eq_nil_iff]
  rw [← hnil]
  unfold leftJoin
  cases rows.filter on <;> simp

theorem leftJoin_ne_nil {β : Type*} (rows : List β) (on : β → Bool) : leftJoin rows on ≠ [] := by
  unfold leftJoin
  cases rows.filter on <;> simp

theorem leftJoin_of_filter_eq_nil {β : Type*} {rows : List β} {on : β → Bool}
    (h : rows.filter on = []) : leftJoin rows on = [none] := by
  rw [leftJoin, h]

theorem leftJoin_eq_map {β : Type*} {rows : List β} {on : β → Bool} (h : rows.filter on ≠ []) :
    leftJoin rows on = (rows.filter on).map some := by
  unfold leftJoin
  cases hmatched : rows.filter on with
  | nil => exact absurd hmatched h
  | cons row matched => rfl

/-! ## Unique matches -/

section Unique

variable {α β : Type*} [DecidableEq α] {rows : List α} {row : α}

/-- A lookup by a key: one row matches and no other does. -/
theorem filter_eq_singleton (hnodup : rows.Nodup) (hrow : row ∈ rows) {on : α → Bool}
    (hon : on row = true) (hunique : ∀ other ∈ rows, on other = true → other = row) :
    rows.filter on = [row] := by
  have hsame : rows.filter on = rows.filter (· == row) := by
    refine List.filter_congr fun other hother => ?_
    rw [Bool.eq_iff_iff, beq_iff_eq]
    exact ⟨hunique other hother, fun heq => heq ▸ hon⟩
  rw [hsame, List.filter_beq, List.count_eq_one_of_mem hnodup hrow]
  rfl

theorem leftJoin_eq_singleton (hnodup : rows.Nodup) (hrow : row ∈ rows) {on : α → Bool}
    (hon : on row = true) (hunique : ∀ other ∈ rows, on other = true → other = row) :
    leftJoin rows on = [some row] := by
  rw [leftJoin, filter_eq_singleton hnodup hrow hon hunique]
  rfl

/-- A join in which only one row has matches. -/
theorem flatMap_eq_of_unique (hnodup : rows.Nodup) (hrow : row ∈ rows) {f : α → List β}
    (h : ∀ other ∈ rows, other ≠ row → f other = []) : rows.flatMap f = f row := by
  induction rows with
  | nil => cases hrow
  | cons first rows ih =>
      obtain ⟨hnew, hnodup⟩ := List.nodup_cons.mp hnodup
      rw [List.flatMap_cons]
      by_cases hfirst : first = row
      · have hrest : rows.flatMap f = [] := by
          refine List.flatMap_eq_nil_iff.mpr fun other hother => ?_
          refine h other (List.mem_cons_of_mem _ hother) ?_
          rintro rfl
          exact hnew (hfirst ▸ hother)
        rw [hfirst, hrest, List.append_nil]
      · have hmem : row ∈ rows := (List.mem_cons.mp hrow).resolve_left (Ne.symm hfirst)
        rw [h first List.mem_cons_self hfirst, List.nil_append]
        exact ih hnodup hmem fun other hother => h other (List.mem_cons_of_mem _ hother)

end Unique

/-! ## Corresponding tables -/

section Correspondence

variable {α β γ : Type*} {R : α → β → Prop} {rows : List α} {rows' : List β}

/-- Two tables describe the same rows, each in its own form and order. -/
def Corresponds (R : α → β → Prop) (rows : List α) (rows' : List β) : Prop :=
  ∃ middle, List.Forall₂ R rows middle ∧ middle.Perm rows'

theorem Corresponds.of_perm {rows rows' : List α} (h : rows.Perm rows') :
    Corresponds (· = ·) rows rows' :=
  ⟨rows, List.forall₂_same.mpr fun _ _ => rfl, h⟩

theorem Corresponds.map {α' β' : Type*} {S : α' → β' → Prop} (h : Corresponds R rows rows')
    {f : α → α'} {g : β → β'} (hfg : ∀ row row', R row row' → S (f row) (g row')) :
    Corresponds S (rows.map f) (rows'.map g) := by
  obtain ⟨middle, hforall, hperm⟩ := h
  refine ⟨middle.map g, ?_, hperm.map g⟩
  rw [List.forall₂_map_left_iff, List.forall₂_map_right_iff]
  exact hforall.imp hfg

theorem Corresponds.filter (h : Corresponds R rows rows') {on : α → Bool} {on' : β → Bool}
    (hon : ∀ row ∈ rows, ∀ row' ∈ rows', R row row' → on row = on' row') :
    Corresponds R (rows.filter on) (rows'.filter on') := by
  obtain ⟨middle, hforall, hperm⟩ := h
  refine ⟨middle.filter on', ?_, hperm.filter on'⟩
  replace hon : ∀ row ∈ rows, ∀ row' ∈ middle, R row row' → on row = on' row' :=
    fun row hrow row' hrow' => hon row hrow row' (hperm.mem_iff.mp hrow')
  clear hperm
  induction hforall with
  | nil => exact .nil
  | @cons row row' rows middle hR _ ih =>
      have ih := ih fun a ha b hb => hon a (List.mem_cons_of_mem _ ha) b (List.mem_cons_of_mem _ hb)
      have hrow := hon row List.mem_cons_self row' List.mem_cons_self hR
      cases hon' : on' row' with
      | false => simpa [hrow, hon'] using ih
      | true => simpa [hrow, hon'] using ⟨hR, ih⟩

/-- Joins of corresponding tables, when the rows joined to corresponding rows are the same. -/
theorem Corresponds.flatMap_perm (h : Corresponds R rows rows') {f : α → List γ} {g : β → List γ}
    (hfg : ∀ row ∈ rows, ∀ row' ∈ rows', R row row' → (f row).Perm (g row')) :
    (rows.flatMap f).Perm (rows'.flatMap g) := by
  obtain ⟨middle, hforall, hperm⟩ := h
  refine List.Perm.trans ?_ (hperm.flatMap_right g)
  replace hfg : ∀ row ∈ rows, ∀ row' ∈ middle, R row row' → (f row).Perm (g row') :=
    fun row hrow row' hrow' => hfg row hrow row' (hperm.mem_iff.mp hrow')
  clear hperm
  induction hforall with
  | nil => exact .nil
  | @cons row row' rows middle hR _ ih =>
      rw [List.flatMap_cons, List.flatMap_cons]
      refine (hfg row List.mem_cons_self row' List.mem_cons_self hR).append (ih ?_)
      exact fun a ha b hb => hfg a (List.mem_cons_of_mem _ ha) b (List.mem_cons_of_mem _ hb)

theorem Corresponds.leftJoin (h : Corresponds R rows rows') {on : α → Bool} {on' : β → Bool}
    (hon : ∀ row ∈ rows, ∀ row' ∈ rows', R row row' → on row = on' row') :
    Corresponds (Option.Rel R) (leftJoin rows on) (leftJoin rows' on') := by
  obtain ⟨middle, hforall, hperm⟩ := h.filter hon
  unfold Relational.leftJoin
  generalize rows.filter on = matched at hforall ⊢
  cases hforall with
  | nil =>
      rw [List.nil_perm.mp hperm]
      exact ⟨[none], .cons .none .nil, .refl _⟩
  | cons hR hrest =>
      -- both sides have matches, so neither joins a null row
      cases hmatched : rows'.filter on' with
      | nil => simp [hmatched] at hperm
      | cons first rest =>
          rw [hmatched] at hperm
          refine ⟨_, ?_, hperm.map some⟩
          rw [List.forall₂_map_left_iff, List.forall₂_map_right_iff]
          exact (List.Forall₂.cons hR hrest).imp fun _ _ => .some

end Correspondence

section Sum

variable {α β : Type*}

theorem leftJoin_eq_none {rows : List α} {on : α → Bool} (h : ∀ row ∈ rows, on row = false) :
    leftJoin rows on = [none] := by
  exact leftJoin_of_filter_eq_nil (List.filter_eq_nil_iff.mpr fun row hrow => by simp [h row hrow])

/-- Null rows add nothing. -/
theorem sum_map_leftJoin (rows : List α) (on : α → Bool) (weight : α → ℕ) :
    ((leftJoin rows on).map fun row => row.elim 0 weight).sum =
      ((rows.filter on).map weight).sum := by
  unfold leftJoin
  cases rows.filter on <;> simp [Function.comp_def]

theorem sum_map_flatMap (rows : List α) (f : α → List β) (weight : β → ℕ) :
    ((rows.flatMap f).map weight).sum = (rows.map fun row => ((f row).map weight).sum).sum := by
  induction rows with
  | nil => rfl
  | cons row rows ih => simp [ih]

theorem sum_map_filterMap (rows : List α) (f : α → Option β) (weight : β → ℕ) :
    ((rows.filterMap f).map weight).sum = (rows.map fun row => (f row).elim 0 weight).sum := by
  induction rows with
  | nil => rfl
  | cons row rows ih => cases hrow : f row <;> simp [hrow, ih]

theorem sum_map_filter_of_zero {rows : List α} {on : α → Bool} {weight : α → ℕ}
    (h : ∀ row ∈ rows, on row = false → weight row = 0) :
    ((rows.filter on).map weight).sum = (rows.map weight).sum := by
  induction rows with
  | nil => rfl
  | cons row rows ih =>
      have ih := ih fun row hrow => h row (List.mem_cons_of_mem _ hrow)
      cases hon : on row with
      | false => simp [hon, h row List.mem_cons_self hon, ih]
      | true => simp [hon, ih]

/-- Subtracting from each row, where only one row counts. -/
theorem sum_map_sub_of_unique {rows : List α} {weight : α → ℕ} (hnodup : rows.Nodup)
    (h : ∀ row ∈ rows, ∀ row' ∈ rows, 0 < weight row → 0 < weight row' → row = row')
    (spent : ℕ) :
    (rows.map fun row => weight row - spent).sum = (rows.map weight).sum - spent := by
  induction rows with
  | nil => simp
  | cons row rows ih =>
      obtain ⟨hnew, hnodup⟩ := List.nodup_cons.mp hnodup
      have ih := ih hnodup fun a ha b hb =>
        h a (List.mem_cons_of_mem _ ha) b (List.mem_cons_of_mem _ hb)
      obtain hzero | hpositive := Nat.eq_zero_or_pos (weight row)
      · simp [hzero, ih]
      · have hrest : ∀ other ∈ rows, weight other = 0 := by
          intro other hother
          by_contra hne
          exact hnew (h row List.mem_cons_self other (List.mem_cons_of_mem _ hother) hpositive
            (Nat.pos_of_ne_zero hne) ▸ hother)
        have hsum : (rows.map weight).sum = 0 :=
          List.sum_eq_zero fun _ hmem => by
            obtain ⟨other, hother, rfl⟩ := List.mem_map.mp hmem
            exact hrest other hother
        rw [hsum, Nat.zero_sub] at ih
        simp [hsum, ih]

end Sum

/-! ## Grouping -/

section Group

variable {κ : Type*} [DecidableEq κ]

/-- Sum a nullable column within each group. -/
def groupSum (rows : List (κ × Option ℕ)) : List (κ × ℕ) :=
  (rows.map Prod.fst).dedup.map fun key =>
    (key, ((rows.filter fun row => row.1 = key).filterMap Prod.snd).sum)

def groupCollect {α : Type*} (rows : List (κ × α)) : List (κ × List α) :=
  (rows.map Prod.fst).dedup.map fun key =>
    (key, (rows.filter fun row => row.1 = key).map Prod.snd)

theorem groupSum_keys_nodup (rows : List (κ × Option ℕ)) :
    ((groupSum rows).map Prod.fst).Nodup := by
  have hkeys : (groupSum rows).map Prod.fst = (rows.map Prod.fst).dedup := by
    simp [groupSum, Function.comp_def]
  rw [hkeys]
  exact List.nodup_dedup _

theorem mem_groupSum {rows : List (κ × Option ℕ)} {key : κ} {total : ℕ} :
    (key, total) ∈ groupSum rows ↔
      key ∈ rows.map Prod.fst ∧
        total = ((rows.filter fun row => row.1 = key).filterMap Prod.snd).sum := by
  constructor
  · intro h
    obtain ⟨key', hkey, heq⟩ := List.mem_map.mp h
    obtain ⟨rfl, rfl⟩ := Prod.mk.inj heq
    exact ⟨List.mem_dedup.mp hkey, rfl⟩
  · rintro ⟨hkey, rfl⟩
    exact List.mem_map.mpr ⟨key, List.mem_dedup.mpr hkey, rfl⟩

/-- Rows of one group are summed up in one row. -/
theorem groupSum_eq_singleton {rows : List (κ × Option ℕ)} {key : κ} (hne : rows ≠ [])
    (h : ∀ row ∈ rows, row.1 = key) :
    groupSum rows = [(key, (rows.map fun row => row.2.elim 0 id).sum)] := by
  have hkeys : rows.map Prod.fst = List.replicate rows.length key :=
    List.eq_replicate_iff.mpr ⟨List.length_map _, by simpa using fun a b hrow => h (a, b) hrow⟩
  have hfilter : (rows.filter fun row => row.1 = key) = rows :=
    List.filter_eq_self.mpr fun row hrow => by simpa using h row hrow
  have hsum : (rows.filterMap Prod.snd).sum = (rows.map fun row => row.2.elim 0 id).sum := by
    clear hne h hkeys hfilter
    induction rows with
    | nil => rfl
    | cons row rows ih => cases hrow : row.2 <;> simp [hrow, ih]
  rw [groupSum, hkeys, List.replicate_dedup (by simpa using hne)]
  simp [hfilter, hsum]

/-- A condition on the grouping columns can be applied before or after grouping. -/
theorem groupSum_filter_perm (rows : List (κ × Option ℕ)) (p : κ → Bool) :
    (groupSum (rows.filter fun row => p row.1)).Perm
      ((groupSum rows).filter fun group => p group.1) := by
  refine (List.perm_ext_iff_of_nodup (groupSum_keys_nodup _).of_map
    ((groupSum_keys_nodup rows).of_map.filter _)).mpr ?_
  rintro ⟨key, total⟩
  rw [List.mem_filter, mem_groupSum, mem_groupSum]
  have hmem : key ∈ (rows.filter fun row => p row.1).map Prod.fst ↔
      key ∈ rows.map Prod.fst ∧ p key = true := by
    constructor
    · intro h
      obtain ⟨row, hrow, rfl⟩ := List.mem_map.mp h
      exact ⟨List.mem_map_of_mem (List.mem_of_mem_filter hrow), (List.mem_filter.mp hrow).2⟩
    · rintro ⟨h, hp⟩
      obtain ⟨row, hrow, rfl⟩ := List.mem_map.mp h
      exact List.mem_map_of_mem (List.mem_filter.mpr ⟨hrow, hp⟩)
  have htotal (hp : p key = true) :
      ((rows.filter fun row => p row.1).filter fun row => row.1 = key) =
        rows.filter fun row => row.1 = key := by
    rw [List.filter_filter]
    refine List.filter_congr fun row _ => ?_
    by_cases heq : row.1 = key
    · simp [heq, hp]
    · simp [heq]
  rw [hmem]
  constructor
  · rintro ⟨⟨hkey, hp⟩, hsum⟩
    exact ⟨⟨hkey, by rw [hsum, htotal hp]⟩, hp⟩
  · rintro ⟨⟨hkey, hsum⟩, hp⟩
    exact ⟨⟨hkey, hp⟩, by rw [hsum, htotal hp]⟩

end Group

/-! ## Ordering -/

/-- How the database orders rows by a key. -/
structure Arrangement {α κ : Type*} [LE κ] (key : α → κ) where
  arrange : List α → List α
  perm : ∀ rows, (arrange rows).Perm rows
  sorted : ∀ rows, (arrange rows).Pairwise fun a b => key a ≤ key b

/-- Every arrangement of some rows is also one of the same rows in another order. -/
theorem Arrangement.exists_arrange_eq {α κ : Type*} [LE κ] {key : α → κ}
    (order : Arrangement key) {rows rows' : List α} (hperm : rows.Perm rows') :
    ∃ order' : Arrangement key, order'.arrange rows' = order.arrange rows := by
  classical
  refine ⟨⟨fun given => order.arrange (if given = rows' then rows else given), ?_, ?_⟩, ?_⟩
  · intro given
    by_cases h : given = rows'
    · rw [if_pos h, h]
      exact (order.perm rows).trans hperm
    · rw [if_neg h]
      exact order.perm given
  · intro given
    exact order.sorted _
  · exact congrArg order.arrange (if_pos rfl)

theorem Arrangement.range_eq_of_perm {α κ γ : Type*} [LE κ] {key : α → κ} {rows rows' : List α}
    (hperm : rows.Perm rows') (f : List α → γ) :
    (Set.range fun order : Arrangement key => f (order.arrange rows)) =
      Set.range fun order : Arrangement key => f (order.arrange rows') := by
  refine Set.Subset.antisymm ?_ ?_
  · rintro _ ⟨order, rfl⟩
    obtain ⟨order', horder⟩ := order.exists_arrange_eq hperm
    exact ⟨order', congrArg f horder⟩
  · rintro _ ⟨order, rfl⟩
    obtain ⟨order', horder⟩ := order.exists_arrange_eq hperm.symm
    exact ⟨order', congrArg f horder⟩

section Order

variable {α κ : Type*} [LinearOrder κ] {key : α → κ}

/-- The arrangement that keeps rows with equal keys in their given order. -/
def Arrangement.stable (key : α → κ) : Arrangement key where
  arrange rows := rows.insertionSort fun a b => key a ≤ key b
  perm rows := List.perm_insertionSort _ rows
  sorted rows := by
    have : Std.Total fun a b => key a ≤ key b := ⟨fun a b => le_total (key a) (key b)⟩
    have : IsTrans α fun a b => key a ≤ key b := ⟨fun _ _ _ => le_trans⟩
    exact List.pairwise_insertionSort _ rows

theorem pairwise_lt_of_nodup {rows : List α} (hsorted : rows.Pairwise fun a b => key a ≤ key b)
    (hkeys : (rows.map key).Nodup) : rows.Pairwise fun a b => key a < key b :=
  (hsorted.and (List.pairwise_map.mp hkeys)).imp fun h => lt_of_le_of_ne h.1 h.2

/-- Rows with distinct keys have one sorted arrangement only. -/
theorem eq_of_sorted_of_perm {rows rows' : List α} (hperm : rows.Perm rows')
    (hkeys : (rows.map key).Nodup) (hsorted : rows.Pairwise fun a b => key a ≤ key b)
    (hsorted' : rows'.Pairwise fun a b => key a ≤ key b) : rows = rows' := by
  refine hperm.eq_of_pairwise ?_ (pairwise_lt_of_nodup hsorted hkeys)
    (pairwise_lt_of_nodup hsorted' ((hperm.map key).nodup_iff.mp hkeys))
  intro a b _ _ hab hba
  exact absurd hab (not_lt_of_gt hba)

/-- Rows with distinct keys can be selected before or after they are ordered. -/
theorem Arrangement.arrange_filter (order order' : Arrangement key) {rows rows' : List α}
    (hkeys : (rows.map key).Nodup) (p : α → Bool) (hperm : rows'.Perm (rows.filter p)) :
    order.arrange rows' = (order'.arrange rows).filter p := by
  have hkeys' : (rows'.map key).Nodup := by
    refine (hperm.map key).nodup_iff.mpr (hkeys.sublist ?_)
    exact (List.filter_sublist (p := p)).map key
  refine eq_of_sorted_of_perm
    ((order.perm rows').trans (hperm.trans ((order'.perm rows).filter p).symm)) ?_
    (order.sorted rows') ((order'.sorted rows).filter p)
  exact ((order.perm rows').map key).nodup_iff.mpr hkeys'

/-! ### The last row of a kind -/

/-- The last row of a kind has the greatest key of all rows of that kind. -/
theorem Arrangement.getLast?_filter_spec (order : Arrangement key) {rows : List α}
    {p : α → Bool} {row : α} (h : ((order.arrange rows).filter p).getLast? = some row) :
    row ∈ rows ∧ p row = true ∧ ∀ other ∈ rows, p other = true → key other ≤ key row := by
  obtain ⟨front, hfront⟩ := List.getLast?_eq_some_iff.mp h
  have hmem {other : α} : other ∈ front ++ [row] ↔ other ∈ rows ∧ p other = true := by
    rw [← hfront, List.mem_filter, (order.perm rows).mem_iff]
  have hsorted := (order.sorted rows).filter p
  rw [hfront, List.pairwise_append] at hsorted
  obtain ⟨hrow, hp⟩ := hmem.mp (List.mem_append_right front (List.mem_singleton_self row))
  refine ⟨hrow, hp, fun other hother hpother => ?_⟩
  rcases List.mem_append.mp (hmem.mpr ⟨hother, hpother⟩) with hin | hlast
  · exact hsorted.2.2 other hin row (by simp)
  · rw [List.mem_singleton.mp hlast]

theorem Arrangement.getLast?_filter_eq_none (order : Arrangement key) {rows : List α}
    {p : α → Bool} :
    ((order.arrange rows).filter p).getLast? = none ↔ ∀ row ∈ rows, p row = false := by
  rw [List.getLast?_eq_none_iff, List.filter_eq_nil_iff]
  simp only [(order.perm rows).mem_iff, Bool.not_eq_true]

/-- The arrangement that puts the favoured rows last among those with equal keys. -/
def Arrangement.favouring (key : α → κ) (favoured : α → Bool) : Arrangement key where
  arrange := (Arrangement.stable fun row => toLex (key row, favoured row)).arrange
  perm := (Arrangement.stable _).perm
  sorted rows := by
    refine ((Arrangement.stable fun row => toLex (key row, favoured row)).sorted rows).imp ?_
    intro a b h
    exact (Prod.Lex.toLex_le_toLex.mp h).elim le_of_lt fun h => h.1.le

/-- Every row with the greatest key of its kind comes last in some arrangement. -/
theorem Arrangement.exists_getLast?_filter [DecidableEq α] {rows : List α} {p : α → Bool}
    {row : α} (hrow : row ∈ rows) (hp : p row = true)
    (hmax : ∀ other ∈ rows, p other = true → key other ≤ key row) :
    ∃ order : Arrangement key, ((order.arrange rows).filter p).getLast? = some row := by
  refine ⟨favouring key fun other => decide (other = row), ?_⟩
  cases hlast : (((favouring key fun other => decide (other = row)).arrange rows).filter
      p).getLast? with
  | none =>
      rw [getLast?_filter_eq_none] at hlast
      rw [hlast row hrow] at hp
      cases hp
  | some last =>
      obtain ⟨hmem, hplast, hgreatest⟩ := (Arrangement.stable fun other =>
        toLex (key other, decide (other = row))).getLast?_filter_spec hlast
      have hle := hgreatest row hrow hp
      rcases Prod.Lex.toLex_le_toLex.mp hle with hlt | ⟨-, hfavoured⟩
      · exact absurd (hmax last hmem hplast) (not_le.mpr hlt)
      · by_contra hne
        have hle : true ≤ false := by simpa [show last ≠ row by simpa using hne] using hfavoured
        exact absurd hle (by decide)

end Order

end PartnerChains.Relational
