import Mathlib

/-!
# Reading back what was written

A reader takes a value off the front of its input. If one reader takes back two values, none
of the two texts can be taken for the other one, whatever follows.
-/

namespace PartnerChains.Reading

variable {β α γ : Type*}

abbrev Reader (β α : Type*) := List β → Option (α × List β)

/-- The reader takes `x` off every input that begins with `written`. -/
def Reads (read : Reader β α) (written : List β) (x : α) : Prop :=
  ∀ rest, read (written ++ rest) = some (x, rest)

theorem Reads.unique {read : Reader β α} {u v r s : List β} {x y : α}
    (hx : Reads read u x) (hy : Reads read v y) (h : u ++ r = v ++ s) : x = y ∧ r = s := by
  have hread := hx r
  rw [h, hy s] at hread
  simpa [eq_comm] using hread

/-! ## Combinators -/

def fail : Reader β α := fun _ => none

def done (x : α) : Reader β α := fun input => some (x, input)

/-- What is read first decides how the rest is read. -/
def andThen (read : Reader β α) (next : α → Reader β γ) : Reader β γ :=
  fun input => (read input).bind fun front => next front.1 front.2

theorem reads_done (x : α) : Reads (done x : Reader β α) [] x := fun _ => rfl

theorem Reads.andThen {read : Reader β α} {next : α → Reader β γ} {u v : List β} {x : α}
    {y : γ} (hx : Reads read u x) (hy : Reads (next x) v y) :
    Reads (andThen read next) (u ++ v) y := by
  intro rest
  rw [Reading.andThen, List.append_assoc, hx (v ++ rest)]
  exact hy rest

/-- A reader is followed by a function of what it read. -/
theorem Reads.map {read : Reader β α} {u : List β} {x : α} (hx : Reads read u x) (f : α → γ) :
    Reads (Reading.andThen read fun x => done (f x)) u (f x) := by
  intro rest
  rw [Reading.andThen, hx rest]
  rfl

def readPair (first : Reader β α) (second : Reader β γ) : Reader β (α × γ) :=
  andThen first fun x => andThen second fun y => done (x, y)

theorem Reads.pair {first : Reader β α} {second : Reader β γ} {u v : List β} {x : α} {y : γ}
    (hx : Reads first u x) (hy : Reads second v y) :
    Reads (readPair first second) (u ++ v) (x, y) :=
  hx.andThen (hy.map fun y => (x, y))

/-! ## A known number of elements or of values -/

def readTake (count : ℕ) : Reader β (List β) := fun input =>
  if count ≤ input.length then some (input.take count, input.drop count) else none

theorem reads_readTake (xs : List β) : Reads (readTake xs.length) xs xs := by
  intro rest
  simp [readTake]

def readTimes (read : Reader β α) : ℕ → Reader β (List α)
  | 0 => done []
  | count + 1 => andThen read fun x => andThen (readTimes read count) fun xs => done (x :: xs)

/-- Values whose texts follow each other. -/
theorem reads_readTimes_flatten {read : Reader β α} {xs : List α} {texts : List (List β)}
    (h : List.Forall₂ (fun x text => Reads read text x) xs texts) :
    Reads (readTimes read xs.length) texts.flatten xs := by
  induction h with
  | nil => exact reads_done []
  | cons hx _ ih => exact hx.andThen (ih.map (_ :: ·))

theorem reads_readTimes {read : Reader β α} {write : α → List β} {xs : List α}
    (h : ∀ x ∈ xs, Reads read (write x) x) :
    Reads (readTimes read xs.length) (xs.flatMap write) xs := by
  rw [List.flatMap_def]
  refine reads_readTimes_flatten ?_
  rw [List.forall₂_map_right_iff, List.forall₂_same]
  exact h

/-! ## Values up to a mark -/

section Marked

variable {stop : β} {read : Reader β α} {xs : List α} {texts : List (List β)}

/-- No value begins with the mark, so the text of a value begins with another element. -/
theorem Reads.exists_cons (hstop : ∀ rest, read (stop :: rest) = none) {text : List β} {x : α}
    (h : Reads read text x) : ∃ b front, text = b :: front ∧ b ≠ stop := by
  cases text with
  | nil =>
      have hread := h [stop]
      rw [List.nil_append, hstop] at hread
      cases hread
  | cons b front =>
      refine ⟨b, front, rfl, ?_⟩
      rintro rfl
      have hread := h []
      rw [List.cons_append, hstop] at hread
      cases hread

theorem length_le_length_flatten (hstop : ∀ rest, read (stop :: rest) = none)
    (h : List.Forall₂ (fun x text => Reads read text x) xs texts) :
    xs.length ≤ texts.flatten.length := by
  induction h with
  | nil => simp
  | cons hx _ ih =>
      obtain ⟨b, front, rfl, _⟩ := hx.exists_cons hstop
      simp only [List.length_cons, List.flatten_cons, List.length_append]
      omega

variable [DecidableEq β]

/-- At most `bound` values, up to the mark. -/
def readUpTo (stop : β) (read : Reader β α) : ℕ → Reader β (List α)
  | 0 => fail
  | bound + 1 => fun input =>
      if input.head? = some stop then some ([], input.tail)
      else andThen read (fun x => andThen (readUpTo stop read bound) fun xs => done (x :: xs)) input

/-- An input cannot hold more values than it has elements. -/
def readUntil (stop : β) (read : Reader β α) : Reader β (List α) :=
  fun input => readUpTo stop read input.length input

theorem reads_readUpTo (hstop : ∀ rest, read (stop :: rest) = none)
    (h : List.Forall₂ (fun x text => Reads read text x) xs texts) {bound : ℕ}
    (hbound : xs.length < bound) :
    Reads (readUpTo stop read bound) (texts.flatten ++ [stop]) xs := by
  induction h generalizing bound with
  | nil =>
      cases bound with
      | zero => omega
      | succ bound =>
          intro rest
          simp [readUpTo]
  | @cons x text xs texts hx _ ih =>
      cases bound with
      | zero => omega
      | succ bound =>
          simp only [List.length_cons] at hbound
          have hxs := ih (show xs.length < bound by omega)
          have hread : Reads (andThen read fun x => andThen (readUpTo stop read bound) fun xs =>
              done (x :: xs)) (text ++ (texts.flatten ++ [stop])) (x :: xs) :=
            hx.andThen (hxs.map (x :: ·))
          obtain ⟨b, front, htext, hb⟩ := hx.exists_cons hstop
          intro rest
          have hhead : (text ++ (texts.flatten ++ [stop]) ++ rest).head? ≠ some stop := by
            simpa [htext] using hb
          rw [List.flatten_cons, List.append_assoc text]
          exact (if_neg hhead).trans (hread rest)

theorem reads_readUntil_flatten (hstop : ∀ rest, read (stop :: rest) = none)
    (h : List.Forall₂ (fun x text => Reads read text x) xs texts) :
    Reads (readUntil stop read) (texts.flatten ++ [stop]) xs := by
  intro rest
  refine reads_readUpTo hstop h ?_ rest
  have hlength := length_le_length_flatten hstop h
  simp only [List.length_append, List.length_singleton]
  omega

theorem reads_readUntil {write : α → List β} (hstop : ∀ rest, read (stop :: rest) = none)
    (h : ∀ x ∈ xs, Reads read (write x) x) :
    Reads (readUntil stop read) (xs.flatMap write ++ [stop]) xs := by
  rw [List.flatMap_def]
  refine reads_readUntil_flatten hstop ?_
  rw [List.forall₂_map_right_iff, List.forall₂_same]
  exact h

end Marked

end PartnerChains.Reading
