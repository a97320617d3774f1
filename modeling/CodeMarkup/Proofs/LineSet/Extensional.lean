import CodeMarkup.Proofs.LineSet.Covered
import CodeMarkup.Render.Request

/-!
# Equality of line sets

Built sets of lines are compared range by range, and so are requests. Since a built set is canonical, the
ranges decide no more than the lines do: two built sets are equal iff they hold the same machine words
(`build_eq_iff`). It makes no difference in what order lines were added, how ranges were cut up or how they
overlap, nor in what order the items of a line list stand.
-/

namespace CodeMarkup

namespace LineSet

variable {one other : LineSet} {ranges others : List LineRange}

/-! ## Sets that stand for ranges -/

/-- No line past the last is in a built set. -/
theorem StandsFor.le_lastLine (h : StandsFor one ranges) {line : Nat} (hline : Holds one.ranges line) :
    line ≤ lastLine := by
  obtain ⟨range, hrange, -, hlast⟩ := hline
  exact Nat.le_trans hlast (h.word range hrange)

/-- **A set is determined by the lines it stands for**, and only machine words count. -/
theorem StandsFor.ext (h₁ : StandsFor one ranges) (h₂ : StandsFor other others)
    (h : ∀ line : UInt64, Holds ranges line.toNat ↔ Holds others line.toNat) : one = other := by
  have hsame : ∀ line, Holds one.ranges line ↔ Holds other.ranges line := by
    intro line
    by_cases hline : line ≤ lastLine
    · have hword : (UInt64.ofNat line).toNat = line :=
        UInt64.toNat_ofNat_of_lt' (Nat.lt_of_le_pred (by decide) hline)
      rw [h₁.holds, h₂.holds, ← hword]
      exact h _
    · exact iff_of_false (fun hholds => hline (h₁.le_lastLine hholds))
        fun hholds => hline (h₂.le_lastLine hholds)
  cases one
  cases other
  exact congrArg LineSet.mk (canonical_ext h₁.canonical h₂.canonical hsame)

/-- Two sets are equal iff they hold the same lines. -/
theorem StandsFor.eq_iff (h₁ : StandsFor one ranges) (h₂ : StandsFor other others) :
    one = other ↔ ∀ line : UInt64, one.contains line.toNat = other.contains line.toNat := by
  constructor
  · rintro rfl line
    rfl
  · intro h
    refine h₁.ext h₂ fun line => ?_
    rw [← h₁.holds, ← h₂.holds, ← contains_iff_holds, ← contains_iff_holds, h line]

/-! ## Adding ranges -/

/-- The edits that add ranges one after another. -/
def insertRanges (bounds : List (UInt64 × UInt64)) : List Edit :=
  bounds.map fun (first, last) => .insertRange first last

theorem given_append_insertRanges (edits : List Edit) (bounds : List (UInt64 × UInt64)) :
    given (edits ++ insertRanges bounds)
      = given edits ++ bounds.map fun (first, last) => wordRange first last := by
  induction bounds generalizing edits with
  | nil => simp [insertRanges]
  | cons first rest ih =>
    have hstep := ih (edits ++ [.insertRange first.1 first.2])
    simp only [insertRanges, List.append_assoc, List.singleton_append] at hstep
    rw [insertRanges, List.map_cons, hstep, given, List.foldl_append, List.foldl_cons, List.foldl_nil,
      Edit.give, List.map_cons, List.append_assoc, List.singleton_append, given]

/-- Ranges of machine words hold the words between their bounds. -/
theorem holds_wordRanges (bounds : List (UInt64 × UInt64)) (line : UInt64) :
    Holds (bounds.map fun (first, last) => wordRange first last) line.toNat ↔
      ∃ pair ∈ bounds, pair.1 ≤ line ∧ line ≤ pair.2 := by
  simp only [Holds, List.mem_map, exists_exists_and_eq_and, wordRange, UInt64.le_iff_toNat_le]

/-- **What is added counts, not how**: ranges with the same lines, added to one set, make one set. -/
theorem build_insertRanges_congr (edits : List Edit) {ones twos : List (UInt64 × UInt64)}
    (h : ∀ line, (∃ pair ∈ ones, pair.1 ≤ line ∧ line ≤ pair.2) ↔
      ∃ pair ∈ twos, pair.1 ≤ line ∧ line ≤ pair.2) :
    build (edits ++ insertRanges ones) = build (edits ++ insertRanges twos) := by
  refine (standsFor_build _).ext (standsFor_build _) fun line => ?_
  rw [given_append_insertRanges, given_append_insertRanges, holds_append, holds_append,
    holds_wordRanges, holds_wordRanges, h]

end LineSet

/-! ## Items in another order -/

/-- If every item can be read, the list can. -/
theorem LineSpec.exists_mapM_of_forall {α β ε : Type} {f : α → Except ε β} {items : List α}
    (h : ∀ item ∈ items, ∃ result, f item = .ok result) : ∃ results, items.mapM f = .ok results := by
  induction items with
  | nil => exact ⟨[], rfl⟩
  | cons first rest ih =>
    obtain ⟨result, hfirst⟩ := h first List.mem_cons_self
    obtain ⟨results, hrest⟩ := ih fun item hm => h item (List.mem_cons_of_mem _ hm)
    exact ⟨result :: results, by rw [List.mapM_cons, hfirst, hrest]; rfl⟩

/-- The set that a line list writes is a built one. -/
theorem LineSet.eq_build_of_ofSpec {text : String} {set : LineSet} (h : ofSpec text = .ok set) :
    set = build [.parse text] := by
  rw [build, List.foldl_cons, List.foldl_nil, Edit.apply, h]

/-- **Line lists with the same items write the same set**, whatever the order of the items, and either both
can be read or neither. -/
theorem LineSet.ofSpec_congr {text other : String} {set : LineSet} (h : ofSpec text = .ok set)
    (hitems : ∀ item, item ∈ LineSpec.items other.toList ↔ item ∈ LineSpec.items text.toList) :
    ofSpec other = .ok set := by
  have hread : ∃ again, ofSpec other = .ok again := by
    rw [ofSpec_eq] at h ⊢
    rcases hranges : LineSpec.ranges? text with fault | ranges
    · rw [hranges] at h
      cases h
    · obtain ⟨again, hagain⟩ : ∃ again, LineSpec.ranges? other = .ok again :=
        LineSpec.exists_mapM_of_forall fun item hitem => by
          obtain ⟨range, -, hrange⟩ := LineSpec.exists_of_mem_of_mapM hranges ((hitems item).mp hitem)
          exact ⟨range, hrange⟩
      exact ⟨_, by rw [hagain]; rfl⟩
  obtain ⟨again, hagain⟩ := hread
  have hcovered : ∀ line, LineSpec.Covered other line ↔ LineSpec.Covered text line := fun line =>
    exists_congr fun item => and_congr_left fun _ => hitems item
  have hsame : again = set := by
    have hone := eq_build_of_ofSpec hagain
    have hother := eq_build_of_ofSpec h
    rw [hone, hother, (standsFor_build _).eq_iff (standsFor_build _), ← hone, ← hother]
    intro line
    rw [Bool.eq_iff_iff, contains_ofSpec_iff hagain, contains_ofSpec_iff h, hcovered]
  rw [hagain, hsame]

/-! ## Requests -/

/-- Requests that differ in their lines at most are the same iff their lines are. -/
theorem Request.same_lines_iff (request : Request) (lines others : LineSet) :
    ({ request with lines := lines }).same { request with lines := others } = true ↔
      lines = others := by
  have hlanguage : sameLanguage request.language request.language = true := by
    rcases request.language with _ | language
    · rfl
    · exact decide_eq_true rfl
  simp [same, hlanguage]

/-- **Two built sets are equal iff they hold the same lines.** A view therefore takes a change of its lines
for none exactly if no line is marked that was not, and none was that is no more.

So ranges with the same lines, however they are cut and in whatever order they are added, lead from one
set to one set, and a line list whose items are put in another order writes the same set. -/
theorem LineSet.build_eq_iff (edits others : List LineSet.Edit) :
    (build edits = build others ↔
      ∀ line : UInt64, (build edits).contains line.toNat = (build others).contains line.toNat) ∧
    (∀ request : Request,
      ({ request with lines := build edits }).same { request with lines := build others } = true ↔
        ∀ line : UInt64, (build edits).contains line.toNat = (build others).contains line.toNat) ∧
    (∀ ones twos : List (UInt64 × UInt64),
      (∀ line, (∃ pair ∈ ones, pair.1 ≤ line ∧ line ≤ pair.2) ↔
        ∃ pair ∈ twos, pair.1 ≤ line ∧ line ≤ pair.2) →
      build (edits ++ insertRanges ones) = build (edits ++ insertRanges twos)) ∧
    ∀ (text other : String) (set : LineSet),
      (LineSpec.items text.toList).Perm (LineSpec.items other.toList) → ofSpec text = .ok set →
      ofSpec other = .ok set := by
  have hbuilt := (standsFor_build edits).eq_iff (standsFor_build others)
  refine ⟨hbuilt, fun request => ?_, fun ones twos => build_insertRanges_congr edits, ?_⟩
  · rw [Request.same_lines_iff, hbuilt]
  · intro text other set hperm hset
    exact ofSpec_congr hset fun item => hperm.symm.mem_iff

/-- Ranges that touch at the last line of all are one, and items may come in any order. -/
theorem LineSet.build_eq_iff_reordered :
    build ([] ++ insertRanges [(5, 18446744073709551614), (18446744073709551615, 18446744073709551615)])
      = build ([] ++ insertRanges [(9, 18446744073709551615), (7, 3), (5, 12)]) ∧
    (LineSpec.items "10-20, 2, 15-30,3-4, 31".toList).Perm
      (LineSpec.items "31,15-30, 3-4,,2 ,10-20".toList) ∧
    ofSpec "10-20, 2, 15-30,3-4, 31" = .ok ⟨[⟨2, 4⟩, ⟨10, 31⟩]⟩ ∧
    ofSpec "31,15-30, 3-4,,2 ,10-20" = .ok ⟨[⟨2, 4⟩, ⟨10, 31⟩]⟩ := by
  obtain ⟨-, -, hranges, hitems⟩ := build_eq_iff [] []
  have hperm : (LineSpec.items "10-20, 2, 15-30,3-4, 31".toList).Perm
      (LineSpec.items "31,15-30, 3-4,,2 ,10-20".toList) := by decide +kernel
  have hset : ofSpec "10-20, 2, 15-30,3-4, 31" = .ok ⟨[⟨2, 4⟩, ⟨10, 31⟩]⟩ := by rfl
  refine ⟨hranges _ _ fun line => ?_, hperm, hset, hitems _ _ _ hperm hset⟩
  simp only [List.mem_cons, List.not_mem_nil, or_false, UInt64.le_iff_toNat_le, exists_eq_or_imp,
    UInt64.reduceToNat, exists_eq_left]
  have := line.toNat_lt
  omega

end CodeMarkup
