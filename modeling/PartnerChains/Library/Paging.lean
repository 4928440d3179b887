import Mathlib

/-!
# Reading a sorted log page by page

A reader keeps a cursor, here the predicate `ahead` of the positions it still has to
visit. Each page takes at most `limit` of the positions that are ahead and within a bound.
A page that is not full moves the cursor to the bound, a full one to its last position.
-/

namespace PartnerChains.Paging

variable {κ : Type*} [LinearOrder κ]

def page (log : List κ) (ahead bound : κ → Bool) (limit : ℕ) : List κ :=
  (log.filter fun x => bound x && ahead x).take limit

/-- What the positions read so far have to do with the cursor: they are increasing, none is
ahead, and no position of the log after the start is skipped. -/
structure Progress (log : List κ) (start ahead bound : κ → Bool) (reads : List κ) : Prop where
  increasing : reads.Pairwise (· < ·)
  mem : ∀ x ∈ reads, x ∈ log ∧ bound x = true
  passed : ∀ x ∈ reads, ahead x = false
  complete : ∀ x ∈ log, start x = true → ahead x = false → x ∈ reads

theorem Progress.begin (log : List κ) (start bound : κ → Bool) :
    Progress log start start bound [] where
  increasing := .nil
  mem := by simp
  passed := by simp
  complete x _ hstart hahead := by simp [hstart] at hahead

section Page

variable {log : List κ} {start ahead bound bound' : κ → Bool} {limit : ℕ} {reads : List κ}

omit [LinearOrder κ] in
theorem mem_page {x : κ} (h : x ∈ page log ahead bound limit) :
    x ∈ log ∧ bound x = true ∧ ahead x = true := by
  simpa using List.mem_of_mem_take h

theorem page_increasing (hlog : log.Pairwise (· < ·)) :
    (page log ahead bound limit).Pairwise (· < ·) :=
  (hlog.filter _).sublist (List.take_sublist _ _)

/-- A page is a gapless beginning of what is ahead. -/
theorem mem_page_of_le (hlog : log.Pairwise (· < ·)) {x y : κ} (hx : x ∈ log)
    (hbound : bound x = true) (hahead : ahead x = true)
    (hy : y ∈ page log ahead bound limit) (hle : x ≤ y) :
    x ∈ page log ahead bound limit := by
  have hsorted : (log.filter fun x => bound x && ahead x).Pairwise (· < ·) := hlog.filter _
  have hmem : x ∈ log.filter fun x => bound x && ahead x := by simp [hx, hbound, hahead]
  rw [← List.take_append_drop limit (log.filter _), List.mem_append] at hmem
  rcases hmem with htake | hdrop
  · exact htake
  · rw [← List.take_append_drop limit (log.filter _), List.pairwise_append] at hsorted
    exact absurd (hsorted.2.2 y hy x hdrop) (not_lt_of_ge hle)

omit [LinearOrder κ] in
theorem mem_page_of_short (hshort : (page log ahead bound limit).length < limit) {x : κ}
    (hx : x ∈ log) (hbound : bound x = true) (hahead : ahead x = true) :
    x ∈ page log ahead bound limit := by
  have hall : page log ahead bound limit = log.filter fun x => bound x && ahead x := by
    refine List.take_of_length_le ?_
    simp only [page, List.length_take] at hshort
    omega
  rw [hall]
  simp [hx, hbound, hahead]

/-- Positions read earlier come before the page. -/
theorem Progress.lt_of_mem_page (h : Progress log start ahead bound reads)
    (hupper : ∀ x y, ahead x = true → x ≤ y → ahead y = true) {x y : κ} (hx : x ∈ reads)
    (hy : y ∈ page log ahead bound' limit) : x < y := by
  by_contra hle
  have hahead := hupper y x (mem_page hy).2.2 (not_lt.mp hle)
  simp [h.passed x hx] at hahead

theorem Progress.append_increasing (h : Progress log start ahead bound reads)
    (hlog : log.Pairwise (· < ·))
    (hupper : ∀ x y, ahead x = true → x ≤ y → ahead y = true) :
    (reads ++ page log ahead bound' limit).Pairwise (· < ·) := by
  rw [List.pairwise_append]
  exact ⟨h.increasing, page_increasing hlog, fun x hx y hy => h.lt_of_mem_page hupper hx hy⟩

theorem Progress.append_mem (h : Progress log start ahead bound reads)
    (hbound : ∀ x, bound x = true → bound' x = true) :
    ∀ x ∈ reads ++ page log ahead bound' limit, x ∈ log ∧ bound' x = true := by
  intro x hx
  rcases List.mem_append.mp hx with hread | hpage
  · exact ⟨(h.mem x hread).1, hbound x (h.mem x hread).2⟩
  · exact ⟨(mem_page hpage).1, (mem_page hpage).2.1⟩

/-- After a page that is not full, only positions beyond the bound are ahead. -/
theorem Progress.short (h : Progress log start ahead bound reads)
    (hlog : log.Pairwise (· < ·))
    (hupper : ∀ x y, ahead x = true → x ≤ y → ahead y = true)
    (hbound : ∀ x, bound x = true → bound' x = true)
    (hshort : (page log ahead bound' limit).length < limit) {ahead' : κ → Bool}
    (hahead' : ∀ x, ahead' x = !bound' x) :
    Progress log start ahead' bound' (reads ++ page log ahead bound' limit) where
  increasing := h.append_increasing hlog hupper
  mem := h.append_mem hbound
  passed x hx := by simp [hahead', (h.append_mem hbound x hx).2]
  complete x hx hstart hbehind := by
    have hx' : bound' x = true := by simpa [hahead'] using hbehind
    by_cases hahead : ahead x = true
    · exact List.mem_append_right _ (mem_page_of_short hshort hx hx' hahead)
    · exact List.mem_append_left _ (h.complete x hx hstart (by simpa using hahead))

/-- After a full page, only positions after its last one are ahead. -/
theorem Progress.full (h : Progress log start ahead bound reads)
    (hlog : log.Pairwise (· < ·))
    (hupper : ∀ x y, ahead x = true → x ≤ y → ahead y = true)
    (hbound : ∀ x, bound x = true → bound' x = true)
    (hlower : ∀ x y, bound' y = true → x ≤ y → bound' x = true) {last : κ}
    (hlast : (page log ahead bound' limit).getLast? = some last) {ahead' : κ → Bool}
    (hahead' : ∀ x, ahead' x = decide (last < x)) :
    Progress log start ahead' bound' (reads ++ page log ahead bound' limit) where
  increasing := h.append_increasing hlog hupper
  mem := h.append_mem hbound
  passed x hx := by
    obtain ⟨init, hinit⟩ := List.getLast?_eq_some_iff.mp hlast
    have hsorted : (reads ++ page log ahead bound' limit).Pairwise (· < ·) :=
      h.append_increasing hlog hupper
    rw [hinit, ← List.append_assoc, List.pairwise_append] at hsorted
    rw [hinit, ← List.append_assoc, List.mem_append, List.mem_singleton] at hx
    have hle : x ≤ last := by
      rcases hx with hbefore | rfl
      · exact (hsorted.2.2 x hbefore last (by simp)).le
      · exact le_rfl
    simp [hahead', hle]
  complete x hx hstart hbehind := by
    have hle : x ≤ last := by simpa [hahead'] using hbehind
    have hmem := List.mem_of_getLast? hlast
    by_cases hahead : ahead x = true
    · exact List.mem_append_right _
        (mem_page_of_le hlog hx (hlower x last (mem_page hmem).2.1 hle) hahead hmem hle)
    · exact List.mem_append_left _ (h.complete x hx hstart (by simpa using hahead))

end Page

end PartnerChains.Paging
