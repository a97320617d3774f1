import CodeMarkup.LineSet.Spec
import CodeMarkup.Proofs.LineSet.Canonical

/-!
# Sets built by edits

A set of lines is built by edits one after another: it is emptied, lines and ranges are added, lines are
collected or a line list is read. Beside the set, an edit changes the list of ranges that were **given**
for it, which knows nothing of merging. The main statement, `contains_build_iff`, says that a built set is
canonical and holds exactly the lines of the ranges given, however many edits there were and whatever
their ranges, up to the largest machine word.
-/

namespace CodeMarkup

/-! ## Ranges of a line list -/

namespace LineSpec

/-- The ranges that a line list writes, in order. -/
def ranges? (text : String) : Except SpecFault (List LineRange) :=
  (items text.toList).mapM readItem

theorem le_of_word? {text : List Char} {value : Nat} (h : word? text = some value) :
    value ≤ lastLine := by
  unfold word? at h
  dsimp only at h
  split at h
  · cases h
  · split at h
    · obtain rfl := Option.some.inj h
      assumption
    · cases h

theorem le_of_readBound {text : List Char} {line : Nat} (h : readBound text = .ok line) :
    line ≤ lastLine := by
  unfold readBound at h
  split at h
  · cases h
  · cases h
  · rename_i hword
    obtain rfl := Except.ok.inj h
    exact le_of_word? hword

/-- An item writes a range that holds a line and has machine words as its bounds. -/
theorem bounds_of_readItem {item : List Char} {range : LineRange} (h : readItem item = .ok range) :
    range.first ≤ range.last ∧ range.last ≤ lastLine := by
  unfold readItem at h
  split at h
  · rcases hline : readBound item with _ | line
    · rw [hline] at h
      cases h
    · rw [hline] at h
      obtain rfl := Except.ok.inj h
      exact ⟨Nat.le_refl _, le_of_readBound hline⟩
  · rename_i left right _
    rcases hleft : readBound left with _ | first
    · rw [hleft] at h
      cases h
    · rcases hright : readBound right with _ | last
      · rw [hleft, hright] at h
        cases h
      · rw [hleft, hright] at h
        have h' : (if first ≤ last then .ok ⟨first, last⟩
          else .error (.backwards item) : Except SpecFault LineRange) = .ok range := h
        split at h'
        · obtain rfl := Except.ok.inj h'
          exact ⟨by assumption, le_of_readBound hright⟩
        · cases h'

/-- What comes out of a list of readings was read from one of them. -/
theorem exists_of_mem_mapM {α β ε : Type} {f : α → Except ε β} {items : List α} {results : List β}
    (h : items.mapM f = .ok results) {result : β} (hm : result ∈ results) :
    ∃ item ∈ items, f item = .ok result := by
  induction items generalizing results with
  | nil =>
    obtain rfl := Except.ok.inj h
    cases hm
  | cons item rest ih =>
    rw [List.mapM_cons] at h
    rcases hfirst : f item with _ | first
    · rw [hfirst] at h
      cases h
    · rcases hothers : rest.mapM f with _ | others
      · rw [hfirst, hothers] at h
        cases h
      · rw [hfirst, hothers] at h
        obtain rfl := Except.ok.inj h
        rcases List.mem_cons.mp hm with rfl | hm
        · exact ⟨item, by simp, hfirst⟩
        · obtain ⟨other, hmem, hread⟩ := ih hothers hm
          exact ⟨other, by simp [hmem], hread⟩

/-- Reading items adds the ranges they write, one after another. -/
theorem readItems_eq (set : LineSet) (items : List (List Char)) :
    readItems set items = (items.mapM readItem).map (·.foldl LineSet.insertRange set) := by
  induction items generalizing set with
  | nil => rfl
  | cons item rest ih =>
    rw [readItems, List.mapM_cons]
    rcases readItem item with fault | range
    · rfl
    · change readItems (set.insertRange range) rest = _
      rw [ih]
      rcases rest.mapM readItem with fault | ranges <;> rfl

end LineSpec

namespace LineSet

theorem ofSpec_eq (text : String) :
    ofSpec text = (LineSpec.ranges? text).map (·.foldl insertRange empty) :=
  LineSpec.readItems_eq empty _

/-! ## Edits -/

/-- What can be done to a set of lines. Line numbers are machine words. -/
inductive Edit where
  /-- to take every line out -/
  | clear
  /-- to add a line -/
  | insert (line : UInt64)
  /-- to add the lines from one to another, which may be none -/
  | insertRange (first last : UInt64)
  /-- to replace the set by the lines of a list -/
  | collect (lines : List UInt64)
  /-- to replace the set by what a line list writes, if it is without fault -/
  | parse (text : String)

/-- The range of two machine words. -/
def wordRange (first last : UInt64) : LineRange := ⟨first.toNat, last.toNat⟩

/-- The set after an edit. -/
def Edit.apply (set : LineSet) : Edit → LineSet
  | .clear => empty
  | .insert line => set.insert line.toNat
  | .insertRange first last => set.insertRange (wordRange first last)
  | .collect lines => ofList (lines.map UInt64.toNat)
  | .parse text =>
    match ofSpec text with
    | .ok other => other
    | .error _ => set

/-- The ranges given for the set, after an edit. -/
def Edit.give (ranges : List LineRange) : Edit → List LineRange
  | .clear => []
  | .insert line => ranges ++ [wordRange line line]
  | .insertRange first last => ranges ++ [wordRange first last]
  | .collect lines => lines.map fun line => wordRange line line
  | .parse text =>
    match LineSpec.ranges? text with
    | .ok others => others
    | .error _ => ranges

/-- The set that edits build. -/
def build (edits : List Edit) : LineSet :=
  edits.foldl Edit.apply empty

/-- The ranges given for the set that edits build. -/
def given (edits : List Edit) : List LineRange :=
  edits.foldl Edit.give []

/-! ## What an edit preserves -/

/-- A set stands for the ranges given: it is canonical, its bounds are machine words, and it holds their
lines. -/
structure StandsFor (set : LineSet) (ranges : List LineRange) : Prop where
  canonical : Canonical set.ranges
  word : ∀ range ∈ set.ranges, range.last ≤ lastLine
  holds : ∀ line, Holds set.ranges line ↔ Holds ranges line

theorem standsFor_empty : StandsFor empty [] :=
  ⟨canonical_empty, by simp [empty], fun _ => Iff.rfl⟩

/-- Merging makes no bound larger than the bounds it merges. -/
theorem last_le_of_mem_merge {range : LineRange} {ranges : List LineRange} {bound : Nat}
    (hr : range.last ≤ bound) (hs : ∀ old ∈ ranges, old.last ≤ bound) :
    ∀ merged ∈ merge range ranges, merged.last ≤ bound := by
  fun_induction merge range ranges with
  | case1 range => simpa using hr
  | case2 range next rest h => simpa using ⟨hr, by simpa using hs⟩
  | case3 range next rest h₁ h₂ ih =>
    simp only [List.mem_cons, forall_eq_or_imp] at hs ⊢
    exact ⟨hs.1, ih hr hs.2⟩
  | case4 range next rest h₁ h₂ ih =>
    simp only [List.mem_cons, forall_eq_or_imp] at hs
    exact ih (Nat.max_le.mpr ⟨hr, hs.1⟩) hs.2

/-- One more range given is one more range added. -/
theorem StandsFor.insertRange {set : LineSet} {ranges : List LineRange} (h : StandsFor set ranges)
    {range : LineRange} (hword : range.last ≤ lastLine) :
    StandsFor (set.insertRange range) (ranges ++ [range]) := by
  refine ⟨canonical_insertRange h.canonical range, ?_, fun line => ?_⟩
  · unfold LineSet.insertRange
    split
    · exact last_le_of_mem_merge hword h.word
    · exact h.word
  · rw [← contains_iff_holds, contains_insertRange h.canonical, Bool.or_eq_true,
      contains_iff_holds, LineRange.contains_iff, h.holds, holds_append, holds_cons, or_comm]
    simp

/-- So are many. -/
theorem StandsFor.foldl {set : LineSet} {ranges : List LineRange} (h : StandsFor set ranges)
    (more : List LineRange) (hword : ∀ range ∈ more, range.last ≤ lastLine) :
    StandsFor (more.foldl LineSet.insertRange set) (ranges ++ more) := by
  induction more generalizing set ranges with
  | nil => simpa using h
  | cons range rest ih =>
    simp only [List.mem_cons, forall_eq_or_imp] at hword
    rw [List.foldl_cons, List.append_cons]
    exact ih (h.insertRange hword.1) hword.2

theorem toNat_le_lastLine (line : UInt64) : line.toNat ≤ lastLine :=
  Nat.le_sub_one_of_lt line.toNat_lt_size

/-- **An edit preserves** that the set stands for the ranges given. -/
theorem StandsFor.apply {set : LineSet} {ranges : List LineRange} (h : StandsFor set ranges)
    (edit : Edit) : StandsFor (edit.apply set) (edit.give ranges) := by
  cases edit with
  | clear => exact standsFor_empty
  | insert line => exact h.insertRange (toNat_le_lastLine line)
  | insertRange first last => exact h.insertRange (toNat_le_lastLine last)
  | collect lines =>
    have hadded := standsFor_empty.foldl (lines.map fun line => wordRange line line) (by
      intro range hm
      obtain ⟨line, -, rfl⟩ := List.mem_map.mp hm
      exact toNat_le_lastLine line)
    rw [List.foldl_map] at hadded
    simp only [Edit.apply, ofList, List.foldl_map]
    exact hadded
  | parse text =>
    simp only [Edit.apply, Edit.give, ofSpec_eq]
    rcases hread : LineSpec.ranges? text with fault | others
    · exact h
    · refine standsFor_empty.foldl others fun range hm => ?_
      obtain ⟨item, -, hitem⟩ := LineSpec.exists_of_mem_mapM hread hm
      exact (LineSpec.bounds_of_readItem hitem).2

/-- A built set stands for the ranges given. -/
theorem standsFor_build (edits : List Edit) : StandsFor (build edits) (given edits) := by
  suffices ∀ set ranges, StandsFor set ranges →
      StandsFor (edits.foldl Edit.apply set) (edits.foldl Edit.give ranges) from
    this _ _ standsFor_empty
  induction edits with
  | nil => exact fun set ranges h => h
  | cons edit rest ih => exact fun set ranges h => ih _ _ (h.apply edit)

/-- **A built set is canonical and holds exactly the lines of the ranges given for it.** Looking at one
range decides whether it holds a line, and the next range may as well be added by sorting and sweeping. -/
theorem contains_build_iff (edits : List Edit) :
    Canonical (build edits).ranges ∧
      (∀ line, (build edits).contains line = true ↔
        ∃ range ∈ given edits, range.first ≤ line ∧ line ≤ range.last) ∧
      (∀ line, (build edits).search line = (build edits).contains line) ∧
      ∀ first last : UInt64,
        (build edits).sweepIn (wordRange first last)
          = (build edits).insertRange (wordRange first last) := by
  have h := standsFor_build edits
  refine ⟨h.canonical, fun line => ?_, search_eq_contains h.canonical, fun first last => ?_⟩
  · rw [contains_iff_holds, h.holds]
    rfl
  · exact sweepIn_eq_insertRange h.canonical h.word (toNat_le_lastLine last)

/-- The last line of all touches the one before it, and a range that runs backwards adds nothing. -/
example :
    (build [.insert 18446744073709551615, .insertRange 7 3, .insertRange 5 18446744073709551614]).ranges
      = [⟨5, 18446744073709551615⟩] := by
  decide

end LineSet

end CodeMarkup
