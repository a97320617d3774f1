/-!
# Sets of line numbers

A reader may ask for any lines of a listing to be marked, also for a million of them at once, so a set
of lines is kept as ranges rather than as single numbers.

The representation is **canonical**: every range holds a line, the ranges ascend, and between one
range and the next at least one line is missing. Two sets with the same lines are then the same value,
which is what lets a display decide by comparing values whether its lines have changed. `insertRange`
keeps the ranges canonical in one pass: it walks past the ranges wholly before the new one, absorbs
those that overlap or touch it, and leaves the rest alone.

Lines are numbered from 0 to `lastLine`, the largest number of a machine word.
-/

namespace CodeMarkup

/-- The largest line number. -/
def lastLine : Nat := UInt64.size - 1

/-- The lines from `first` to `last`, both included; none if `last` comes before `first`. -/
structure LineRange where
  /-- the first line of the range -/
  first : Nat
  /-- the last line of the range -/
  last : Nat
  deriving DecidableEq, Repr

namespace LineRange

/-- Whether a line lies in the range. -/
def contains (range : LineRange) (line : Nat) : Bool :=
  range.first ≤ line && line ≤ range.last

/-- How many lines the range holds. -/
def size (range : LineRange) : Nat :=
  range.last + 1 - range.first

/-- Whether at least one line is missing between a range and a later one. -/
def before (earlier later : LineRange) : Prop :=
  earlier.last + 1 < later.first

instance (earlier later : LineRange) : Decidable (earlier.before later) :=
  inferInstanceAs (Decidable (_ < _))

/-- The smallest range that covers two. -/
def hull (one other : LineRange) : LineRange :=
  ⟨min one.first other.first, max one.last other.last⟩

theorem contains_iff {range : LineRange} {line : Nat} :
    range.contains line = true ↔ range.first ≤ line ∧ line ≤ range.last := by
  simp [contains]

/-- Two ranges with no line missing between them cover exactly what their hull covers. -/
theorem contains_hull {one other : LineRange} (h₁ : ¬one.before other) (h₂ : ¬other.before one)
    (_ : one.first ≤ one.last) (_ : other.first ≤ other.last) (line : Nat) :
    (one.hull other).contains line = (one.contains line || other.contains line) := by
  rw [Bool.eq_iff_iff]
  simp only [before, Nat.not_lt] at h₁ h₂
  simp only [contains_iff, Bool.or_eq_true, hull]
  omega

end LineRange

/-- A set of line numbers, kept as canonical ranges. -/
structure LineSet where
  /-- the ranges, ascending, with a line missing between each two -/
  ranges : List LineRange
  deriving DecidableEq, Repr

namespace LineSet

/-- The set without lines. -/
def empty : LineSet := ⟨[]⟩

instance : Inhabited LineSet := ⟨empty⟩

/-- Whether the set has no lines. -/
def isEmpty (set : LineSet) : Bool :=
  set.ranges.isEmpty

/-- Whether a line is in the set. -/
def contains (set : LineSet) (line : Nat) : Bool :=
  set.ranges.any (·.contains line)

/-- Canonical ranges with one more range merged in. -/
def merge (range : LineRange) : List LineRange → List LineRange
  | [] => [range]
  | next :: rest =>
    if range.before next then range :: next :: rest
    else if next.before range then next :: merge range rest
    -- the two touch or overlap, and what they make up may touch more
    else merge (range.hull next) rest

/-- The set with every line of a range added. -/
def insertRange (set : LineSet) (range : LineRange) : LineSet :=
  if range.first ≤ range.last then ⟨merge range set.ranges⟩ else set

/-- The set with one line added. -/
def insert (set : LineSet) (line : Nat) : LineSet :=
  set.insertRange ⟨line, line⟩

/-- The set of the lines in a list. -/
def ofList (lines : List Nat) : LineSet :=
  lines.foldl insert empty

/-- The lines of a range, in order. -/
def rangeLines (range : LineRange) : List Nat :=
  List.range' range.first range.size

/-- Every line of the set, in order. -/
def toList (set : LineSet) : List Nat :=
  set.ranges.flatMap rangeLines

/-- The first `count` lines of a list of ranges, found without writing out the others. -/
def takeRanges : Nat → List LineRange → List Nat
  | _, [] => []
  | count, range :: rest =>
    let here := min count range.size
    List.range' range.first here ++ takeRanges (count - here) rest

/-- The first `count` lines of the set. -/
def take (set : LineSet) (count : Nat) : List Nat :=
  takeRanges count set.ranges

/-! ## Canonical ranges -/

/-- The form in which a set is kept. -/
def Canonical (ranges : List LineRange) : Prop :=
  (∀ range ∈ ranges, range.first ≤ range.last) ∧ ranges.Pairwise LineRange.before

instance (ranges : List LineRange) : Decidable (Canonical ranges) :=
  inferInstanceAs (Decidable (_ ∧ _))

theorem canonical_empty : Canonical empty.ranges :=
  ⟨by simp [empty], List.Pairwise.nil⟩

/-- What a merged range is made of: the new range and old ones, so a range before all of these is
before it. -/
theorem before_of_mem_merge {range : LineRange} {ranges : List LineRange} {other : LineRange}
    (hr : other.before range) (hs : ∀ next ∈ ranges, other.before next) :
    ∀ next ∈ merge range ranges, other.before next := by
  fun_induction merge range ranges with
  | case1 range => simpa using hr
  | case2 range next rest h => simpa using ⟨hr, by simpa using hs⟩
  | case3 range next rest h₁ h₂ ih =>
    simp only [List.mem_cons, forall_eq_or_imp] at hs ⊢
    exact ⟨hs.1, ih hr hs.2⟩
  | case4 range next rest h₁ h₂ ih =>
    simp only [List.mem_cons, forall_eq_or_imp] at hs
    refine ih ?_ hs.2
    have := hs.1
    simp only [LineRange.before, LineRange.hull] at *
    omega

/-- Merging keeps the ranges canonical. -/
theorem canonical_merge {range : LineRange} {ranges : List LineRange}
    (hr : range.first ≤ range.last) (hs : Canonical ranges) : Canonical (merge range ranges) := by
  fun_induction merge range ranges with
  | case1 range => exact ⟨by simpa using hr, by simp⟩
  | case2 range next rest h =>
    refine ⟨by simpa using ⟨hr, by simpa using hs.1⟩, List.pairwise_cons.2 ⟨?_, hs.2⟩⟩
    have hp := List.pairwise_cons.1 hs.2
    have hn := hs.1 next (by simp)
    intro later hl
    rcases List.mem_cons.1 hl with rfl | hl
    · exact h
    · have := hp.1 later hl
      simp only [LineRange.before] at *
      omega
  | case3 range next rest h₁ h₂ ih =>
    have hp := List.pairwise_cons.1 hs.2
    have hrest : Canonical rest := ⟨fun r m => hs.1 r (by simp [m]), hp.2⟩
    have h := ih hr hrest
    refine ⟨?_, List.pairwise_cons.2 ⟨before_of_mem_merge h₂ hp.1, h.2⟩⟩
    simp only [List.mem_cons, forall_eq_or_imp]
    exact ⟨hs.1 next (by simp), h.1⟩
  | case4 range next rest h₁ h₂ ih =>
    -- the rest alone is canonical, and the hull is a range
    have hp := List.pairwise_cons.1 hs.2
    refine ih ?_ ⟨fun r m => hs.1 r (by simp [m]), hp.2⟩
    simp only [LineRange.hull]
    omega

/-- Merging adds exactly the lines of the new range. -/
theorem any_contains_merge {range : LineRange} {ranges : List LineRange}
    (hr : range.first ≤ range.last) (hs : ∀ next ∈ ranges, next.first ≤ next.last) (line : Nat) :
    (merge range ranges).any (·.contains line)
      = (range.contains line || ranges.any (·.contains line)) := by
  fun_induction merge range ranges with
  | case1 range => simp
  | case2 range next rest h => simp
  | case3 range next rest h₁ h₂ ih =>
    simp only [List.mem_cons, forall_eq_or_imp] at hs
    simp only [List.any_cons, ih hr hs.2]
    cases range.contains line <;> simp
  | case4 range next rest h₁ h₂ ih =>
    simp only [List.mem_cons, forall_eq_or_imp] at hs
    have hhull : (range.hull next).first ≤ (range.hull next).last := by
      simp only [LineRange.hull]
      omega
    simp only [List.any_cons, ih hhull hs.2,
      LineRange.contains_hull h₁ h₂ hr hs.1, Bool.or_assoc]

/-- Adding a range keeps the set canonical. -/
theorem canonical_insertRange {set : LineSet} (h : Canonical set.ranges) (range : LineRange) :
    Canonical (set.insertRange range).ranges := by
  unfold insertRange
  split
  · exact canonical_merge (by assumption) h
  · exact h

/-- A line is in the set after a range was added iff it was before or lies in the range. -/
theorem contains_insertRange {set : LineSet} (h : Canonical set.ranges) (range : LineRange)
    (line : Nat) :
    (set.insertRange range).contains line = (range.contains line || set.contains line) := by
  unfold insertRange contains
  split
  · exact any_contains_merge (by assumption) h.1 line
  · rename_i hr
    suffices range.contains line = false by simp [this]
    rw [← Bool.not_eq_true, LineRange.contains_iff]
    omega

end LineSet

end CodeMarkup
