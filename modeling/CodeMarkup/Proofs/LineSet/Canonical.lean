import Mathlib.Data.List.TakeWhile
import CodeMarkup.LineSet.Basic

/-!
# One form for each set of lines

Canonical ranges are determined by the lines they hold (`canonical_ext`). So any other way to add a range
that holds the right lines and leaves canonical ranges is `insertRange`, and this module compares
`insertRange` and `contains` with the two algorithms a library of intervals would rather use:

* `sweepIn` appends the range, sorts by first lines and walks over the result once, taking each range
  that touches or overlaps the one before it into that one. The walk never computes a number past
  `lastLine`: the successor of `lastLine` is `lastLine`.
* `search` looks only at the last range that starts at or before the line.

Both are right on canonical ranges only, and the first on machine words only.
-/

namespace CodeMarkup.LineSet

variable {range : LineRange} {ranges : List LineRange} {line : Nat}

/-! ## Lines held by ranges -/

/-- Some range of a list holds the line. -/
def Holds (ranges : List LineRange) (line : Nat) : Prop :=
  ∃ range ∈ ranges, range.first ≤ line ∧ line ≤ range.last

@[simp] theorem not_holds_nil : ¬ Holds [] line := by
  rintro ⟨range, hr, -⟩
  cases hr

@[simp] theorem holds_cons :
    Holds (range :: ranges) line ↔ (range.first ≤ line ∧ line ≤ range.last) ∨ Holds ranges line := by
  simp [Holds]

theorem holds_append (others : List LineRange) :
    Holds (ranges ++ others) line ↔ Holds ranges line ∨ Holds others line := by
  simp only [Holds, List.mem_append, or_and_right, exists_or]

theorem any_contains_iff : ranges.any (·.contains line) = true ↔ Holds ranges line := by
  simp [Holds, LineRange.contains_iff]

theorem contains_iff_holds (set : LineSet) : set.contains line = true ↔ Holds set.ranges line :=
  any_contains_iff

/-! ## Canonical ranges hold their lines in one way only -/

theorem canonical_cons :
    Canonical (range :: ranges) ↔
      range.first ≤ range.last ∧ (∀ later ∈ ranges, range.before later) ∧ Canonical ranges := by
  simp only [Canonical, List.mem_cons, forall_eq_or_imp, List.pairwise_cons]
  constructor
  · rintro ⟨⟨hr, hs⟩, hb, hp⟩
    exact ⟨hr, hb, hs, hp⟩
  · rintro ⟨hr, hb, hs, hp⟩
    exact ⟨⟨hr, hs⟩, hb, hp⟩

/-- Between the first of canonical ranges and any line of the others at least one line is missing. -/
theorem Canonical.lt_of_holds (h : Canonical (range :: ranges)) (hl : Holds ranges line) :
    range.last + 1 < line := by
  obtain ⟨-, hb, -⟩ := canonical_cons.mp h
  obtain ⟨later, hm, hfirst, -⟩ := hl
  have hbefore : range.last + 1 < later.first := hb later hm
  omega

/-- The first range of a canonical list starts no later than any range list with the same lines, and
ends no later than it does. -/
private theorem head_le {one other : LineRange} {ones others : List LineRange}
    (h₁ : Canonical (one :: ones)) (h₂ : Canonical (other :: others))
    (h : ∀ line, Holds (one :: ones) line ↔ Holds (other :: others) line) :
    one.first ≤ other.first ∧ (one.first = other.first → one.last ≤ other.last) := by
  obtain ⟨hone, -, -⟩ := canonical_cons.mp h₁
  obtain ⟨hother, -, -⟩ := canonical_cons.mp h₂
  have hstart : one.first ≤ other.first := by
    rcases holds_cons.mp ((h other.first).mpr (holds_cons.mpr (Or.inl ⟨Nat.le_refl _, hother⟩))) with hl | hl
    · exact hl.1
    · have := h₁.lt_of_holds hl
      omega
  refine ⟨hstart, fun heq => Nat.le_of_not_lt fun hlt => ?_⟩
  -- the line after `other` lies in `one`, but nothing in the second list holds it
  rcases holds_cons.mp ((h (other.last + 1)).mp (holds_cons.mpr (Or.inl ⟨by omega, hlt⟩))) with hl | hl
  · omega
  · have := h₂.lt_of_holds hl
    omega

/-- **Canonical ranges are determined by their lines.** -/
theorem canonical_ext {ones others : List LineRange} (h₁ : Canonical ones) (h₂ : Canonical others)
    (h : ∀ line, Holds ones line ↔ Holds others line) : ones = others := by
  induction ones generalizing others with
  | nil =>
    cases others with
    | nil => rfl
    | cons other others =>
      obtain ⟨hother, -, -⟩ := canonical_cons.mp h₂
      exact absurd ((h other.first).mpr (holds_cons.mpr (Or.inl ⟨Nat.le_refl _, hother⟩))) not_holds_nil
  | cons one ones ih =>
    cases others with
    | nil =>
      obtain ⟨hone, -, -⟩ := canonical_cons.mp h₁
      exact absurd ((h one.first).mp (holds_cons.mpr (Or.inl ⟨Nat.le_refl _, hone⟩))) not_holds_nil
    | cons other others =>
      obtain ⟨hle, hend⟩ := head_le h₁ h₂ h
      obtain ⟨hge, hend'⟩ := head_le h₂ h₁ fun line => (h line).symm
      have hfirst : one.first = other.first := by omega
      have hlast : one.last = other.last := Nat.le_antisymm (hend hfirst) (hend' hfirst.symm)
      have hrest : ∀ line, Holds ones line ↔ Holds others line := by
        intro line
        have hall := h line
        rw [holds_cons, holds_cons, hfirst, hlast] at hall
        constructor
        · intro hl
          have := h₁.lt_of_holds hl
          rcases hall.mp (Or.inr hl) with hin | hl'
          · omega
          · exact hl'
        · intro hl
          have := h₂.lt_of_holds hl
          rcases hall.mpr (Or.inr hl) with hin | hl'
          · omega
          · exact hl'
      rw [ih (canonical_cons.mp h₁).2.2 (canonical_cons.mp h₂).2.2 hrest]
      congr 1
      cases one
      cases other
      simp only [LineRange.mk.injEq]
      exact ⟨hfirst, hlast⟩


/-! ## Adding a range by sorting and sweeping -/

/-- The line after a line; there is none after `lastLine`. -/
def successor (line : Nat) : Nat :=
  min (line + 1) lastLine

/-- A sweep over ranges ascending by first lines, with `open` the range that may still grow. -/
def sweepFrom (current : LineRange) : List LineRange → List LineRange
  | [] => [current]
  | next :: rest =>
    if next.first ≤ successor current.last then
      sweepFrom ⟨current.first, max current.last next.last⟩ rest
    else current :: sweepFrom next rest

/-- Ranges ascending by first lines, with those that touch or overlap made one. -/
def sweep : List LineRange → List LineRange
  | [] => []
  | range :: rest => sweepFrom range rest

/-- The set with a range added, sorted and swept. -/
def sweepIn (set : LineSet) (range : LineRange) : LineSet :=
  if range.first ≤ range.last then
    ⟨sweep ((set.ranges ++ [range]).mergeSort fun one other => one.first ≤ other.first)⟩
  else set

/-- What a sweep starts from: ranges ascending by first lines, each with a line and none with a line
past `lastLine`. -/
def Ascending (ranges : List LineRange) : Prop :=
  (∀ range ∈ ranges, range.first ≤ range.last ∧ range.last ≤ lastLine) ∧
    ranges.Pairwise fun one other => one.first ≤ other.first

theorem ascending_cons :
    Ascending (range :: ranges) ↔
      (range.first ≤ range.last ∧ range.last ≤ lastLine) ∧
        (∀ later ∈ ranges, range.first ≤ later.first) ∧ Ascending ranges := by
  simp only [Ascending, List.mem_cons, forall_eq_or_imp, List.pairwise_cons]
  constructor
  · rintro ⟨⟨hr, hs⟩, hb, hp⟩
    exact ⟨hr, hb, hs, hp⟩
  · rintro ⟨hr, hb, hs, hp⟩
    exact ⟨⟨hr, hs⟩, hb, hp⟩

/-- Two neighbours made one leave the ranges ascending. -/
theorem Ascending.join {current next : LineRange} (h : Ascending (current :: next :: ranges)) :
    Ascending (⟨current.first, max current.last next.last⟩ :: ranges) := by
  obtain ⟨hcurrent, hle, htail⟩ := ascending_cons.mp h
  obtain ⟨hnext, -, hrest⟩ := ascending_cons.mp htail
  refine ascending_cons.mpr ⟨?_, fun later hm => hle later (by simp [hm]), hrest⟩
  simp only
  omega

/-- A sweep loses no line and adds none. -/
theorem holds_sweepFrom {current : LineRange} (h : Ascending (current :: ranges)) :
    Holds (sweepFrom current ranges) line ↔ Holds (current :: ranges) line := by
  induction ranges generalizing current with
  | nil => rfl
  | cons next rest ih =>
    obtain ⟨hcurrent, hle, htail⟩ := ascending_cons.mp h
    obtain ⟨hnext, -, -⟩ := ascending_cons.mp htail
    have hfirst : current.first ≤ next.first := hle next (by simp)
    unfold sweepFrom
    split
    · -- no line is missing between the two
      rename_i htouch
      rw [ih h.join]
      simp only [holds_cons, ← or_assoc]
      refine or_congr_left ?_
      simp only [successor] at htouch
      omega
    · rw [holds_cons, ih htail]
      simp only [holds_cons]

/-- A sweep yields nothing before the range it starts with. -/
theorem first_le_of_mem_sweepFrom {current : LineRange} (h : Ascending (current :: ranges)) :
    ∀ range ∈ sweepFrom current ranges, current.first ≤ range.first := by
  induction ranges generalizing current with
  | nil => simp [sweepFrom]
  | cons next rest ih =>
    obtain ⟨-, hle, htail⟩ := ascending_cons.mp h
    unfold sweepFrom
    split
    · exact ih h.join
    · intro range hm
      rcases List.mem_cons.mp hm with rfl | hm
      · exact Nat.le_refl _
      · exact Nat.le_trans (hle next (by simp)) (ih htail range hm)

/-- A sweep yields canonical ranges. -/
theorem canonical_sweepFrom {current : LineRange} (h : Ascending (current :: ranges)) :
    Canonical (sweepFrom current ranges) := by
  induction ranges generalizing current with
  | nil =>
    obtain ⟨hcurrent, -, -⟩ := ascending_cons.mp h
    exact canonical_cons.mpr ⟨hcurrent.1, by simp, canonical_empty⟩
  | cons next rest ih =>
    obtain ⟨hcurrent, -, htail⟩ := ascending_cons.mp h
    obtain ⟨hnext, -, -⟩ := ascending_cons.mp htail
    unfold sweepFrom
    split
    · exact ih h.join
    · rename_i hgap
      refine canonical_cons.mpr ⟨hcurrent.1, fun later hm => ?_, ih htail⟩
      -- `next` is a machine word, so the bounded successor hides no gap
      have hfirst : next.first ≤ later.first := first_le_of_mem_sweepFrom htail later hm
      simp only [successor, LineRange.before] at hgap ⊢
      omega

theorem holds_sweep (h : Ascending ranges) : Holds (sweep ranges) line ↔ Holds ranges line := by
  cases ranges with
  | nil => rfl
  | cons range rest => exact holds_sweepFrom h

theorem canonical_sweep (h : Ascending ranges) : Canonical (sweep ranges) := by
  cases ranges with
  | nil => exact canonical_empty
  | cons range rest => exact canonical_sweepFrom h

/-- **Sorting and sweeping adds a range as `insertRange` does.** -/
theorem sweepIn_eq_insertRange {set : LineSet} (h : Canonical set.ranges)
    (hword : ∀ old ∈ set.ranges, old.last ≤ lastLine) (hlast : range.last ≤ lastLine) :
    set.sweepIn range = set.insertRange range := by
  unfold sweepIn insertRange
  split
  · rename_i hrange
    generalize hsorted : (set.ranges ++ [range]).mergeSort _ = sorted
    have hmem : ∀ other, other ∈ sorted ↔ other ∈ set.ranges ∨ other = range := by
      intro other
      rw [← hsorted, List.mem_mergeSort, List.mem_append, List.mem_singleton]
    have hascending : Ascending sorted := by
      constructor
      · intro other hm
        rcases (hmem other).mp hm with hm | rfl
        · exact ⟨h.1 other hm, hword other hm⟩
        · exact ⟨hrange, hlast⟩
      · rw [← hsorted]
        have hpair := @List.pairwise_mergeSort LineRange
          (fun one other => decide (one.first ≤ other.first)) (by simp; omega) (by simp; omega)
          (set.ranges ++ [range])
        simpa using hpair
    congr 1
    refine canonical_ext (canonical_sweep hascending) (canonical_merge hrange h) fun line => ?_
    rw [holds_sweep hascending, ← @any_contains_iff (merge range set.ranges),
      any_contains_merge hrange h.1, Bool.or_eq_true, any_contains_iff, LineRange.contains_iff]
    simp only [Holds, hmem, or_and_right, exists_or, exists_eq_left]
    exact or_comm
  · rfl

/-! ## Looking a line up -/

/-- Whether a line is in the set, by the last range that starts at or before it. -/
def search (set : LineSet) (line : Nat) : Bool :=
  match (set.ranges.takeWhile (·.first ≤ line)).getLast? with
  | some range => range.contains line
  | none => false

/-- No line before the first of canonical ranges is held by any of them. -/
theorem Canonical.not_holds_of_lt (h : Canonical (range :: ranges)) (hl : line < range.first) :
    ¬ Holds (range :: ranges) line := by
  obtain ⟨hrange, -, -⟩ := canonical_cons.mp h
  rw [holds_cons]
  rintro (hin | hin)
  · omega
  · have := h.lt_of_holds hin
    omega

/-- **Looking at one range is enough.** -/
theorem search_eq_contains {set : LineSet} (h : Canonical set.ranges) (line : Nat) :
    set.search line = set.contains line := by
  obtain ⟨ranges⟩ := set
  simp only [search, contains] at h ⊢
  induction ranges with
  | nil => rfl
  | cons range rest ih =>
    obtain ⟨-, hb, hrest⟩ := canonical_cons.mp h
    have hlook := ih hrest
    by_cases hfirst : range.first ≤ line
    · rw [List.takeWhile_cons_of_pos (by simpa using hfirst), List.any_cons]
      rcases htaken : rest.takeWhile (·.first ≤ line) with _ | ⟨next, more⟩
      · -- `range` is the last to start in time, so none of the others holds the line
        rw [htaken] at hlook
        rw [htaken, ← hlook]
        exact (Bool.or_false _).symm
      · -- `range` ends before the next one starts, and that one still starts in time
        have hnext : next ∈ rest.takeWhile (·.first ≤ line) := by simp [htaken]
        have hbefore : range.last + 1 < next.first := hb next (List.takeWhile_subset _ hnext)
        have hle : next.first ≤ line := by simpa using List.mem_takeWhile_imp hnext
        have hout : range.contains line = false := by
          rw [← Bool.not_eq_true, LineRange.contains_iff]
          omega
        rw [hout, Bool.false_or, ← hlook, htaken, List.getLast?_cons_cons]
    · rw [List.takeWhile_cons_of_neg (by simpa using hfirst)]
      have hnone := h.not_holds_of_lt (Nat.lt_of_not_le hfirst)
      rw [← any_contains_iff, Bool.not_eq_true] at hnone
      rw [hnone]
      rfl

end CodeMarkup.LineSet
