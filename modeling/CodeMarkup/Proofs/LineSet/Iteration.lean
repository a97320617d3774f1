import Mathlib.Data.List.Dedup
import Mathlib.Data.List.Sort
import CodeMarkup.Proofs.LineSet.Edits

/-!
# Listing and collecting lines

A set gives out its lines range by range, each range from its first line to its last. The lines come out ascending,
since the ranges are canonical, and they are the lines that the set holds (`mem_toList_iff`). Counting goes on inside
a range only, so it never asks for the number after the largest machine word, not even in a set that holds that word
(`countUp?_eq`).

Collecting puts lines in one at a time, and most of them touch the range of the line before. What grows back from the
lines of a canonical set is that set, range for range, because canonical ranges are determined by their lines. The
lines of what was collected from any list are that list, sorted and without its repetitions. So listing and
collecting undo each other (`ofList_toList_build`).
-/

namespace CodeMarkup.LineSet

variable {range : LineRange} {ranges : List LineRange} {line last : Nat}

/-! ## Lines in order -/

theorem mem_rangeLines : line ∈ rangeLines range ↔ range.first ≤ line ∧ line ≤ range.last := by
  simp only [rangeLines, LineRange.size, List.mem_range'_1]
  omega

theorem mem_flatMap_rangeLines : line ∈ ranges.flatMap rangeLines ↔ Holds ranges line := by
  simp only [List.mem_flatMap, mem_rangeLines, Holds]

/-- A set gives out the lines that it holds. -/
theorem mem_toList_iff (set : LineSet) : line ∈ set.toList ↔ set.contains line = true :=
  mem_flatMap_rangeLines.trans (contains_iff_holds set).symm

/-- The lines of canonical ranges ascend, within a range and from one range to the next. -/
theorem Canonical.pairwise_lines (h : Canonical ranges) : (ranges.flatMap rangeLines).Pairwise (· < ·) := by
  refine List.pairwise_flatMap.mpr ⟨fun range _ => List.pairwise_lt_range', h.2.imp ?_⟩
  intro earlier later hbefore line hline other hother
  have hle : line ≤ earlier.last := (mem_rangeLines.mp hline).2
  have hge : later.first ≤ other := (mem_rangeLines.mp hother).1
  exact Nat.lt_of_le_of_lt hle (Nat.lt_of_lt_of_le (Nat.lt_of_succ_lt hbefore) hge)

/-- The first lines of some ranges are found without the others. -/
theorem takeRanges_eq (count : Nat) (ranges : List LineRange) :
    takeRanges count ranges = (ranges.flatMap rangeLines).take count := by
  induction ranges generalizing count with
  | nil => rw [takeRanges, List.flatMap_nil, List.take_nil]
  | cons range rest ih =>
    have hhere : (rangeLines range).take count = List.range' range.first (min count range.size) := by
      rcases Nat.le_total count range.size with hle | hle
      · rw [Nat.min_eq_left hle]
        exact List.take_range'_of_length_ge hle
      · rw [Nat.min_eq_right hle]
        exact List.take_range'_of_length_le hle
    have hlater : count - min count range.size = count - (rangeLines range).length := by
      rw [rangeLines, List.length_range']
      omega
    rw [takeRanges, List.flatMap_cons, List.take_append, hhere, ih, hlater]

/-! ## Counting up in machine words -/

/-- The lines from `line` to `last`, counted up one by one in machine words: `none` if counting asks for the number
after the largest of them. A range is left at its last line, without counting on. -/
def countUp? (last line : Nat) : Option (List Nat) :=
  if last < line then some []
  else if line = last then some [line]
  else if line < lastLine then (countUp? last (line + 1)).map (line :: ·)
  else none
termination_by last - line

/-- The lines of some ranges, counted up range by range. -/
def countRanges? : List LineRange → Option (List Nat)
  | [] => some []
  | range :: rest => do
    let lines ← countUp? range.last range.first
    let others ← countRanges? rest
    return lines ++ others

/-- Counting up to a machine word never goes past it. -/
theorem countUp?_eq (hlast : last ≤ lastLine) (line : Nat) :
    countUp? last line = some (rangeLines ⟨line, last⟩) := by
  fun_induction countUp? last line with
  | case1 line hdone =>
    have hsize : last + 1 - line = 0 := by omega
    rw [rangeLines, LineRange.size, hsize, List.range'_zero]
  | case2 hmore =>
    have hsize : last + 1 - last = 1 := by omega
    rw [rangeLines, LineRange.size, hsize, List.range'_one]
  | case3 line hmore hne hword ih =>
    have hsize : last + 1 - line = last + 1 - (line + 1) + 1 := by omega
    rw [ih, Option.map_some, rangeLines, rangeLines, LineRange.size, LineRange.size, hsize, List.range'_succ]
  | case4 line hmore hne hpast => exact absurd hpast (by omega)

theorem countRanges?_eq (h : ∀ range ∈ ranges, range.last ≤ lastLine) :
    countRanges? ranges = some (ranges.flatMap rangeLines) := by
  induction ranges with
  | nil => rfl
  | cons range rest ih =>
    rw [countRanges?, countUp?_eq (h range List.mem_cons_self),
      ih fun other hother => h other (List.mem_cons_of_mem _ hother)]
    rfl

/-! ## Collecting lines -/

/-- Adding lines one after another keeps a set canonical and adds these lines. -/
theorem foldl_insert {set : LineSet} (h : Canonical set.ranges) (lines : List Nat) :
    Canonical (lines.foldl insert set).ranges ∧
      ∀ line, Holds (lines.foldl insert set).ranges line ↔ line ∈ lines ∨ Holds set.ranges line := by
  induction lines generalizing set with
  | nil => exact ⟨h, fun line => by simp⟩
  | cons first rest ih =>
    obtain ⟨hcanonical, hholds⟩ := ih (canonical_insertRange h ⟨first, first⟩)
    refine ⟨hcanonical, fun line => ?_⟩
    have hfirst : Holds (set.insertRange ⟨first, first⟩).ranges line ↔ line = first ∨ Holds set.ranges line := by
      rw [← contains_iff_holds, contains_insertRange h, Bool.or_eq_true, contains_iff_holds,
        LineRange.contains_iff, Nat.le_antisymm_iff, and_comm]
    rw [List.foldl_cons, insert, hholds, hfirst, List.mem_cons, or_left_comm, or_assoc]

theorem canonical_ofList (lines : List Nat) : Canonical (ofList lines).ranges :=
  (foldl_insert canonical_empty lines).1

/-- What was collected from a list holds the lines of the list. -/
theorem holds_ofList_iff (lines : List Nat) : Holds (ofList lines).ranges line ↔ line ∈ lines := by
  rw [ofList, (foldl_insert canonical_empty lines).2, empty]
  exact or_iff_left not_holds_nil

/-- **A canonical set grows back from its lines**, range for range. -/
theorem ofList_toList {set : LineSet} (h : Canonical set.ranges) : ofList set.toList = set := by
  have hranges : (ofList set.toList).ranges = set.ranges :=
    canonical_ext (canonical_ofList _) h fun line => (holds_ofList_iff _).trans mem_flatMap_rangeLines
  exact congrArg LineSet.mk hranges

/-- **What was collected gives out the lines of the list**, sorted and each of them once. -/
theorem toList_ofList (lines : List Nat) : (ofList lines).toList = lines.dedup.mergeSort := by
  have hsorted : lines.dedup.mergeSort.Pairwise (· ≤ ·) := by
    simpa using @List.pairwise_mergeSort Nat (fun one other => decide (one ≤ other))
      (by simpa using fun _ _ _ => Nat.le_trans) (by simpa using Nat.le_total) lines.dedup
  have hnodup : lines.dedup.mergeSort.Nodup := List.nodup_mergeSort.mpr lines.nodup_dedup
  have hascending : lines.dedup.mergeSort.Pairwise (· < ·) :=
    hsorted.imp₂ (fun _ _ => Nat.lt_of_le_of_ne) hnodup
  refine (canonical_ofList lines).pairwise_lines.eq_of_mem_iff hascending fun line => ?_
  rw [mem_flatMap_rangeLines, holds_ofList_iff, List.mem_mergeSort, List.mem_dedup]

/-- **Listing and collecting undo each other.** A built set gives out the lines that it holds, in ascending order, as
many of them as are asked for, and never counts past the largest machine word. Collecting these lines builds the
set again, with the same ranges. And whatever lines are collected, in any order and however often, come out sorted
and once each. -/
theorem ofList_toList_build (edits : List Edit) :
    (build edits).toList.Pairwise (· < ·) ∧
      (∀ line, line ∈ (build edits).toList ↔ (build edits).contains line = true) ∧
      countRanges? (build edits).ranges = some (build edits).toList ∧
      (∀ count, (build edits).take count = (build edits).toList.take count) ∧
      ofList (build edits).toList = build edits ∧
      ∀ lines : List Nat, (ofList lines).toList = lines.dedup.mergeSort := by
  have h := standsFor_build edits
  exact ⟨h.canonical.pairwise_lines, fun _ => mem_toList_iff _, countRanges?_eq h.word,
    fun count => takeRanges_eq count _, ofList_toList h.canonical, toList_ofList⟩

/-- Single lines grow into ranges where they touch, up to the largest machine word. -/
example : (ofList [18446744073709551615, 3, 1, 2, 3, 18446744073709551614]).ranges
    = [⟨1, 3⟩, ⟨18446744073709551614, 18446744073709551615⟩] := by
  decide

end CodeMarkup.LineSet
