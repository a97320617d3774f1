import CodeMarkup.Proofs.LineSet.Edits
import CodeMarkup.Proofs.Work

/-!
# The lines that a line list asks for

A line list asks for the lines that its items cover, each on its own: an item without a dash covers the line
whose number it writes, and an item with one covers the lines between the numbers on the two sides of its
first dash. No set of lines comes into this, and it makes no difference whether items overlap, touch or
repeat. If a list can be read, the set read from it holds exactly these lines (`contains_ofSpec_iff`).
-/

namespace CodeMarkup

namespace LineSpec

/-- Whether a text writes a line number, blanks around it aside. -/
def Writes (text : List Char) (line : Nat) : Prop :=
  word? (Text.trim text) = some line

/-- Whether an item covers a line. -/
inductive Covers (line : Nat) : List Char → Prop where
  /-- its number -/
  | single {item : List Char} (hdash : '-' ∉ item) (hline : Writes item line) : Covers line item
  /-- the numbers around its first dash, with the line between them -/
  | between {left right : List Char} {first last : Nat} (hdash : '-' ∉ left) (hleft : Writes left first)
      (hright : Writes right last) (hfirst : first ≤ line) (hlast : line ≤ last) :
    Covers line (left ++ '-' :: right)

/-- Whether some item of a line list covers a line. -/
def Covered (spec : String) (line : Nat) : Prop :=
  ∃ item ∈ items spec.toList, Covers line item

/-! ## Dashes -/

theorem splitDash_eq_none_iff {item : List Char} : splitDash item = none ↔ '-' ∉ item := by
  induction item with
  | nil => simp [splitDash]
  | cons c rest ih =>
    by_cases hc : c = '-'
    · subst hc
      simp [splitDash]
    · rw [splitDash, Option.map_eq_none_iff, ih, List.mem_cons, not_or]
      · exact ⟨fun h => ⟨Ne.symm hc, h⟩, And.right⟩
      · exact hc

theorem splitDash_append {left : List Char} (h : '-' ∉ left) (right : List Char) :
    splitDash (left ++ '-' :: right) = some (left, right) := by
  induction left with
  | nil => rfl
  | cons c left ih =>
    rw [List.mem_cons, not_or] at h
    rw [List.cons_append, splitDash, ih h.2]
    · rfl
    · exact Ne.symm h.1

theorem eq_of_splitDash {item left right : List Char} (h : splitDash item = some (left, right)) :
    '-' ∉ left ∧ item = left ++ '-' :: right := by
  induction item generalizing left with
  | nil => cases h
  | cons c rest ih =>
    by_cases hc : c = '-'
    · subst hc
      obtain ⟨rfl, rfl⟩ := Prod.mk.inj (Option.some.inj h)
      exact ⟨List.not_mem_nil, rfl⟩
    · rw [splitDash, Option.map_eq_some_iff] at h
      · obtain ⟨⟨before, after⟩, hrest, hsides⟩ := h
        obtain ⟨rfl, rfl⟩ := Prod.mk.inj hsides
        obtain ⟨hbefore, rfl⟩ := ih hrest
        exact ⟨List.not_mem_cons_of_ne_of_not_mem (Ne.symm hc) hbefore, rfl⟩
      · exact hc

/-! ## Deciding -/

/-- An item covers what is written between its dashes, or by it if it has none. -/
theorem covers_iff {line : Nat} {item : List Char} :
    Covers line item ↔
      match splitDash item with
      | none => Writes item line
      | some (left, right) => ∃ first last, Writes left first ∧ Writes right last ∧ first ≤ line ∧ line ≤ last := by
  constructor
  · intro h
    cases h with
    | single hdash hline =>
      rw [splitDash_eq_none_iff.mpr hdash]
      exact hline
    | between hdash hleft hright hfirst hlast =>
      rw [splitDash_append hdash]
      exact ⟨_, _, hleft, hright, hfirst, hlast⟩
  · intro h
    rcases hsplit : splitDash item with _ | ⟨left, right⟩
    · rw [hsplit] at h
      exact .single (splitDash_eq_none_iff.mp hsplit) h
    · rw [hsplit] at h
      obtain ⟨first, last, hleft, hright, hfirst, hlast⟩ := h
      obtain ⟨hdash, rfl⟩ := eq_of_splitDash hsplit
      exact .between hdash hleft hright hfirst hlast

instance (text : List Char) (line : Nat) : Decidable (Writes text line) :=
  inferInstanceAs (Decidable (_ = _))

instance (line : Nat) (left right : List Char) :
    Decidable (∃ first last, Writes left first ∧ Writes right last ∧ first ≤ line ∧ line ≤ last) :=
  decidable_of_iff ((word? (Text.trim left)).any fun first => (word? (Text.trim right)).any fun last =>
    first ≤ line ∧ line ≤ last) (by simp [Writes, Option.any_eq_true])

instance (line : Nat) (item : List Char) : Decidable (Covers line item) :=
  match h : splitDash item with
  | none => decidable_of_iff (Writes item line) (by rw [covers_iff, h])
  | some (left, right) =>
    decidable_of_iff (∃ first last, Writes left first ∧ Writes right last ∧ first ≤ line ∧ line ≤ last)
      (by rw [covers_iff, h])

instance (spec : String) (line : Nat) : Decidable (Covered spec line) :=
  inferInstanceAs (Decidable (∃ item ∈ items spec.toList, Covers line item))

/-! ## Reading -/

/-- A bound that can be read is the number that is written. -/
theorem writes_of_readBound {text : List Char} {bound : Nat} (h : readBound text = .ok bound) :
    Writes text bound := by
  unfold readBound at h
  split at h
  · cases h
  · cases h
  · rename_i hword
    obtain rfl := Except.ok.inj h
    exact hword

theorem Writes.unique {text : List Char} {one other : Nat} (hone : Writes text one)
    (hother : Writes text other) : one = other :=
  Option.some.inj (hone.symm.trans hother)

/-- **An item that can be read covers the lines of the range that it writes.** -/
theorem covers_iff_of_readItem {item : List Char} {range : LineRange} (h : readItem item = .ok range)
    (line : Nat) : Covers line item ↔ range.first ≤ line ∧ line ≤ range.last := by
  unfold readItem at h
  rw [covers_iff]
  rcases hsplit : splitDash item with _ | ⟨left, right⟩
  · rw [hsplit] at h
    obtain ⟨bound, hbound, h⟩ := ok_of_bind h
    obtain rfl := Except.ok.inj h
    have hwrites := writes_of_readBound hbound
    -- the range holds one line only
    constructor
    · intro hline
      obtain rfl := hwrites.unique hline
      exact ⟨Nat.le_refl _, Nat.le_refl _⟩
    · rintro ⟨hfirst, hlast⟩
      obtain rfl : bound = line := Nat.le_antisymm hfirst hlast
      exact hwrites
  · rw [hsplit] at h
    obtain ⟨first, hleft, h⟩ := ok_of_bind h
    obtain ⟨last, hright, h⟩ := ok_of_bind h
    have hfirst := writes_of_readBound hleft
    have hlast := writes_of_readBound hright
    split at h
    · obtain rfl := Except.ok.inj h
      constructor
      · rintro ⟨one, other, hone, hother, hline⟩
        obtain rfl := hfirst.unique hone
        obtain rfl := hlast.unique hother
        exact hline
      · exact fun hline => ⟨first, last, hfirst, hlast, hline⟩
    · cases h

/-- Of a list that was read, every item was. -/
theorem exists_of_mem_of_mapM {α β ε : Type} {f : α → Except ε β} {items : List α} {results : List β}
    (h : items.mapM f = .ok results) {item : α} (hm : item ∈ items) :
    ∃ result ∈ results, f item = .ok result := by
  induction items generalizing results with
  | nil => cases hm
  | cons first rest ih =>
    rw [List.mapM_cons] at h
    obtain ⟨result, hfirst, h⟩ := ok_of_bind h
    obtain ⟨others, hrest, h⟩ := ok_of_bind h
    obtain rfl := Except.ok.inj h
    rcases List.mem_cons.mp hm with rfl | hm
    · exact ⟨result, List.mem_cons_self, hfirst⟩
    · obtain ⟨other, hmem, hread⟩ := ih hrest hm
      exact ⟨other, List.mem_cons_of_mem _ hmem, hread⟩

/-- The ranges that a line list writes hold the lines that it asks for. -/
theorem holds_iff_covered {spec : String} {ranges : List LineRange} (h : ranges? spec = .ok ranges)
    (line : Nat) : LineSet.Holds ranges line ↔ Covered spec line := by
  constructor
  · rintro ⟨range, hrange, hline⟩
    obtain ⟨item, hitem, hread⟩ := exists_of_mem_mapM h hrange
    exact ⟨item, hitem, (covers_iff_of_readItem hread line).mpr hline⟩
  · rintro ⟨item, hitem, hcovers⟩
    obtain ⟨range, hrange, hread⟩ := exists_of_mem_of_mapM h hitem
    exact ⟨range, hrange, (covers_iff_of_readItem hread line).mp hcovers⟩

end LineSpec

/-- **The set read from a line list holds exactly the lines that the list asks for**, in whatever order its
items come and however they overlap. -/
theorem LineSet.contains_ofSpec_iff {spec : String} {set : LineSet} (h : LineSet.ofSpec spec = .ok set)
    (line : Nat) : set.contains line = true ↔ LineSpec.Covered spec line := by
  rw [LineSet.ofSpec_eq] at h
  rcases hranges : LineSpec.ranges? spec with fault | ranges
  · rw [hranges] at h
    cases h
  · rw [hranges] at h
    obtain rfl := Except.ok.inj h
    have hword : ∀ range ∈ ranges, range.last ≤ lastLine := fun range hrange => by
      obtain ⟨item, -, hread⟩ := LineSpec.exists_of_mem_mapM hranges hrange
      exact (LineSpec.bounds_of_readItem hread).2
    rw [contains_iff_holds, (standsFor_empty.foldl ranges hword).holds, List.nil_append,
      LineSpec.holds_iff_covered hranges]

/-- Blanks and plus signs do not count, and items may overlap. -/
example : LineSpec.Covered "7, +2 - 4,,3-\u20035" 5 ∧ ¬ LineSpec.Covered "7, +2 - 4,,3-\u20035" 6 := by
  decide

end CodeMarkup
