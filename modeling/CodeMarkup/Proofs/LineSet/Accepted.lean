import CodeMarkup.Proofs.LineSet.Extensional

/-!
# Which line lists can be read

What a line list may look like is said here by a grammar. An item is a line number, or two of them on the two
sides of its first dash, the first no later than the second (`Denotes`); a line number is a numeral with blanks
around it (`Names`), and a numeral is an optional plus sign and decimal digits (`Numeral`).

Beside what an item may be stands what can be wrong with it (`Faulty`), side by side with the order in which the
wrongs count: the left bound before the right one, and both before their order. An item is one or the other, and
never both. The main statement, `ofSpec_reads`, says that a list is read iff every item of it is in the grammar,
that the set read from it has the lines that the items denote, and that a list that is not read is refused for the
fault of its first faulty item.
-/

namespace CodeMarkup

namespace LineSpec

/-! ## The grammar -/

/-- A text writes a number: in decimal digits, with a plus sign in front or without. -/
inductive Numeral (value : Nat) : List Char → Prop where
  /-- without a sign -/
  | unsigned {digits : List Char} (hsome : digits ≠ []) (hdigits : ∀ c ∈ digits, c.isDigit = true)
      (hvalue : Text.decimalValue digits = value) : Numeral value digits
  /-- with a plus sign -/
  | plus {digits : List Char} (hsome : digits ≠ []) (hdigits : ∀ c ∈ digits, c.isDigit = true)
      (hvalue : Text.decimalValue digits = value) : Numeral value ('+' :: digits)

/-- A text names a line: blanks aside, it writes the line's number, which is a machine word and not zero. -/
structure Names (text : List Char) (line : Nat) : Prop where
  /-- the number is written -/
  numeral : Numeral line (Text.trim text)
  /-- lines are counted from one -/
  pos : 1 ≤ line
  /-- and to the last machine word -/
  word : line ≤ lastLine

/-- An item denotes a range of lines. -/
inductive Denotes : List Char → LineRange → Prop where
  /-- one line, by its number -/
  | single {item : List Char} {line : Nat} (hdash : '-' ∉ item) (hline : Names item line) :
    Denotes item ⟨line, line⟩
  /-- the lines from one to another, by the numbers around its first dash -/
  | between {left right : List Char} {first last : Nat} (hdash : '-' ∉ left) (hleft : Names left first)
      (hright : Names right last) (horder : first ≤ last) : Denotes (left ++ '-' :: right) ⟨first, last⟩

/-- What is wrong with a text that is to name a line. -/
inductive BadBound (text : List Char) : SpecFault → Prop where
  /-- it writes no number that a machine word can be -/
  | notNumber (h : ∀ value, Numeral value (Text.trim text) → lastLine < value) : BadBound text (.notNumber text)
  /-- it writes zero -/
  | zero (h : Numeral 0 (Text.trim text)) : BadBound text .zero

/-- What is wrong with an item. -/
inductive Faulty : List Char → SpecFault → Prop where
  /-- its number -/
  | single {item : List Char} {fault : SpecFault} (hdash : '-' ∉ item) (hbound : BadBound item fault) :
    Faulty item fault
  /-- its left bound, whatever its right one may be -/
  | left {left right : List Char} {fault : SpecFault} (hdash : '-' ∉ left) (hbound : BadBound left fault) :
    Faulty (left ++ '-' :: right) fault
  /-- its right bound, with nothing wrong on the left -/
  | right {left right : List Char} {first : Nat} {fault : SpecFault} (hdash : '-' ∉ left)
      (hleft : Names left first) (hbound : BadBound right fault) : Faulty (left ++ '-' :: right) fault
  /-- the order of its bounds -/
  | backwards {left right : List Char} {first last : Nat} (hdash : '-' ∉ left) (hleft : Names left first)
      (hright : Names right last) (horder : last < first) :
    Faulty (left ++ '-' :: right) (.backwards (left ++ '-' :: right))

/-! ## Numbers -/

variable {text item : List Char} {value line : Nat} {fault : SpecFault} {range : LineRange}

theorem unsigned_cases (text : List Char) : text = '+' :: unsigned text ∨ text = unsigned text := by
  unfold unsigned
  split
  · exact Or.inl rfl
  · exact Or.inr rfl

/-- A numeral is its digits, whether or not there is a sign. -/
theorem numeral_iff : Numeral value text ↔
    unsigned text ≠ [] ∧ (∀ c ∈ unsigned text, c.isDigit = true) ∧ Text.decimalValue (unsigned text) = value := by
  constructor
  · intro h
    cases h with
    | unsigned hsome hdigits hvalue =>
      have hsame : unsigned text = text := by
        unfold unsigned
        split
        · -- a plus sign is no digit
          exact absurd (hdigits '+' List.mem_cons_self) (by decide)
        · rfl
      rw [hsame]
      exact ⟨hsome, hdigits, hvalue⟩
    | plus hsome hdigits hvalue => exact ⟨hsome, hdigits, hvalue⟩
  · rintro ⟨hsome, hdigits, hvalue⟩
    rcases unsigned_cases text with hplus | hsame
    · rw [hplus]
      exact .plus hsome hdigits hvalue
    · rw [hsame]
      exact .unsigned hsome hdigits hvalue

/-- The word of a text is the number that it writes, if that is a word. -/
theorem word?_eq_some_iff : word? text = some value ↔ Numeral value text ∧ value ≤ lastLine := by
  rw [numeral_iff, word?]
  split
  · rename_i hbad
    refine iff_of_false nofun ?_
    rintro ⟨⟨hsome, hdigits, -⟩, -⟩
    rcases Bool.or_eq_true_iff.mp hbad with hnone | hother
    · exact hsome (List.isEmpty_iff.mp hnone)
    · rw [List.all_eq_true.mpr hdigits] at hother
      cases hother
  · rename_i hgood
    rw [Bool.or_eq_true, not_or, List.isEmpty_iff, Bool.not_eq_true', Bool.not_eq_false] at hgood
    have hdigits := List.all_eq_true.mp hgood.2
    split
    · rename_i hword
      constructor
      · intro h
        obtain rfl := Option.some.inj h
        exact ⟨⟨hgood.1, hdigits, rfl⟩, hword⟩
      · rintro ⟨⟨-, -, rfl⟩, -⟩
        rfl
    · rename_i hlarge
      refine iff_of_false nofun ?_
      rintro ⟨⟨-, -, rfl⟩, hword⟩
      exact hlarge hword

theorem word?_eq_none_iff : word? text = none ↔ ∀ value, Numeral value text → lastLine < value := by
  rw [Option.eq_none_iff_forall_ne_some]
  refine forall_congr' fun value => ?_
  rw [ne_eq, word?_eq_some_iff, not_and, Nat.not_le]

/-! ## Bounds -/

/-- **A bound is read iff it names a line.** -/
theorem readBound_eq_ok_iff : readBound text = .ok line ↔ Names text line := by
  unfold readBound
  constructor
  · intro h
    split at h
    · cases h
    · cases h
    · rename_i value hzero hword
      obtain rfl := Except.ok.inj h
      obtain ⟨hnumeral, hlast⟩ := word?_eq_some_iff.mp hword
      exact ⟨hnumeral, Nat.one_le_iff_ne_zero.mpr hzero, hlast⟩
  · rintro ⟨hnumeral, hpos, hlast⟩
    obtain ⟨before, rfl⟩ := Nat.exists_eq_add_of_le' hpos
    rw [word?_eq_some_iff.mpr ⟨hnumeral, hlast⟩]
    rfl

/-- **A bound is refused iff there is something wrong with it**, and for just that. -/
theorem readBound_eq_error_iff : readBound text = .error fault ↔ BadBound text fault := by
  unfold readBound
  constructor
  · intro h
    split at h
    · rename_i hword
      obtain rfl := Except.error.inj h
      exact .notNumber (word?_eq_none_iff.mp hword)
    · rename_i hword
      obtain rfl := Except.error.inj h
      exact .zero (word?_eq_some_iff.mp hword).1
    · cases h
  · intro h
    cases h with
    | notNumber h => rw [word?_eq_none_iff.mpr h]
    | zero h =>
      rw [word?_eq_some_iff.mpr ⟨h, Nat.zero_le _⟩]
      rfl

/-! ## Items -/

/-- Reading an item without a dash. -/
theorem readItem_of_not_mem (h : '-' ∉ item) :
    readItem item = (readBound item).map fun line => ⟨line, line⟩ := by
  rw [readItem, splitDash_eq_none_iff.mpr h]
  rcases readBound item with _ | _ <;> rfl

/-- Reading an item at its first dash: its left bound first, then its right one, and then their order. -/
theorem readItem_append {left : List Char} (h : '-' ∉ left) (right : List Char) :
    readItem (left ++ '-' :: right) = (readBound left).bind fun first => (readBound right).bind fun last =>
      if first ≤ last then .ok ⟨first, last⟩ else .error (.backwards (left ++ '-' :: right)) := by
  rw [readItem, splitDash_append h]
  rfl

/-- An item has a first dash or none. -/
theorem dash_cases (item : List Char) :
    '-' ∉ item ∨ ∃ left right, '-' ∉ left ∧ item = left ++ '-' :: right := by
  rcases hsplit : splitDash item with _ | ⟨left, right⟩
  · exact Or.inl (splitDash_eq_none_iff.mp hsplit)
  · exact Or.inr ⟨left, right, eq_of_splitDash hsplit⟩

/-- **An item is read iff it denotes a range**, and as that range. -/
theorem readItem_eq_ok_iff : readItem item = .ok range ↔ Denotes item range := by
  constructor
  · intro h
    rcases dash_cases item with hdash | ⟨left, right, hdash, rfl⟩
    · rw [readItem_of_not_mem hdash] at h
      rcases hline : readBound item with fault | line
      · rw [hline] at h
        cases h
      · rw [hline] at h
        obtain rfl := Except.ok.inj h
        exact .single hdash (readBound_eq_ok_iff.mp hline)
    · rw [readItem_append hdash] at h
      obtain ⟨first, hleft, h⟩ := ok_of_bind h
      obtain ⟨last, hright, h⟩ := ok_of_bind h
      split at h
      · rename_i horder
        obtain rfl := Except.ok.inj h
        exact .between hdash (readBound_eq_ok_iff.mp hleft) (readBound_eq_ok_iff.mp hright) horder
      · cases h
  · intro h
    cases h with
    | single hdash hline =>
      rw [readItem_of_not_mem hdash, readBound_eq_ok_iff.mpr hline]
      rfl
    | between hdash hleft hright horder =>
      rw [readItem_append hdash, readBound_eq_ok_iff.mpr hleft, readBound_eq_ok_iff.mpr hright]
      exact if_pos horder

/-- **An item is refused iff it is faulty**, and for just that fault. -/
theorem readItem_eq_error_iff : readItem item = .error fault ↔ Faulty item fault := by
  constructor
  · intro h
    rcases dash_cases item with hdash | ⟨left, right, hdash, rfl⟩
    · rw [readItem_of_not_mem hdash] at h
      rcases hline : readBound item with other | line
      · rw [hline] at h
        obtain rfl := Except.error.inj h
        exact .single hdash (readBound_eq_error_iff.mp hline)
      · rw [hline] at h
        cases h
    · rw [readItem_append hdash] at h
      rcases hleft : readBound left with other | first
      · rw [hleft] at h
        obtain rfl := Except.error.inj h
        exact .left hdash (readBound_eq_error_iff.mp hleft)
      rcases hright : readBound right with other | last
      · rw [hleft, hright] at h
        obtain rfl := Except.error.inj h
        exact .right hdash (readBound_eq_ok_iff.mp hleft) (readBound_eq_error_iff.mp hright)
      · rw [hleft, hright] at h
        by_cases horder : first ≤ last
        · simp [Except.bind, horder] at h
        · obtain rfl : SpecFault.backwards (left ++ '-' :: right) = fault := by
            simpa [Except.bind, horder] using h
          exact .backwards hdash (readBound_eq_ok_iff.mp hleft) (readBound_eq_ok_iff.mp hright)
            (Nat.lt_of_not_le horder)
  · intro h
    cases h with
    | single hdash hbound =>
      rw [readItem_of_not_mem hdash, readBound_eq_error_iff.mpr hbound]
      rfl
    | left hdash hbound =>
      rw [readItem_append hdash, readBound_eq_error_iff.mpr hbound]
      rfl
    | right hdash hleft hbound =>
      rw [readItem_append hdash, readBound_eq_ok_iff.mpr hleft, readBound_eq_error_iff.mpr hbound]
      rfl
    | backwards hdash hleft hright horder =>
      rw [readItem_append hdash, readBound_eq_ok_iff.mpr hleft, readBound_eq_ok_iff.mpr hright]
      exact if_neg (Nat.not_le_of_lt horder)

/-! ## Lists -/

/-- Going through a list ends at the first item that fails. -/
theorem mapM_eq_error_iff {α β ε : Type} {f : α → Except ε β} {items : List α} {fault : ε} :
    items.mapM f = .error fault ↔ ∃ front item rest, items = front ++ item :: rest ∧
      (∀ good ∈ front, ∃ result, f good = .ok result) ∧ f item = .error fault := by
  induction items with
  | nil =>
    refine iff_of_false nofun ?_
    rintro ⟨front, item, rest, hitems, -⟩
    exact List.append_ne_nil_of_right_ne_nil front (List.cons_ne_nil item rest) hitems.symm
  | cons first rest ih =>
    rw [List.mapM_cons]
    rcases hfirst : f first with other | result
    · change (Except.error other : Except ε (List β)) = .error fault ↔ _
      constructor
      · intro h
        obtain rfl := Except.error.inj h
        exact ⟨[], first, rest, rfl, nofun, hfirst⟩
      · rintro ⟨_ | ⟨good, front⟩, item, after, hitems, hfront, hitem⟩
        · obtain ⟨rfl, -⟩ := List.cons.inj hitems
          exact congrArg Except.error (Except.error.inj (hfirst.symm.trans hitem))
        · obtain ⟨rfl, -⟩ := List.cons.inj hitems
          obtain ⟨result, hresult⟩ := hfront first List.mem_cons_self
          rw [hfirst] at hresult
          cases hresult
    · have hrest : ((Except.ok result : Except ε β) >>= fun result => rest.mapM f >>= fun results =>
          pure (result :: results)) = .error fault ↔ rest.mapM f = .error fault := by
        rcases rest.mapM f with other | results
        · exact Iff.rfl
        · exact iff_of_false nofun nofun
      rw [hrest, ih]
      constructor
      · rintro ⟨front, item, after, rfl, hfront, hitem⟩
        exact ⟨first :: front, item, after, rfl, List.forall_mem_cons.mpr ⟨⟨result, hfirst⟩, hfront⟩, hitem⟩
      · rintro ⟨_ | ⟨good, front⟩, item, after, hitems, hfront, hitem⟩
        · obtain ⟨rfl, -⟩ := List.cons.inj hitems
          rw [hfirst] at hitem
          cases hitem
        · obtain ⟨rfl, rfl⟩ := List.cons.inj hitems
          exact ⟨front, item, after, rfl, (List.forall_mem_cons.mp hfront).2, hitem⟩

/-- The lines that an item covers are those of the range that it denotes. -/
theorem covers_iff_of_denotes (h : Denotes item range) : Covers line item ↔ range.first ≤ line ∧ line ≤ range.last :=
  covers_iff_of_readItem (readItem_eq_ok_iff.mpr h) line

theorem ranges?_isOk_iff {spec : String} : (∃ ranges, ranges? spec = .ok ranges) ↔
    ∀ item ∈ items spec.toList, ∃ range, Denotes item range := by
  simp only [← readItem_eq_ok_iff]
  constructor
  · rintro ⟨ranges, hranges⟩ item hitem
    obtain ⟨range, -, hrange⟩ := exists_of_mem_of_mapM hranges hitem
    exact ⟨range, hrange⟩
  · exact exists_mapM_of_forall

end LineSpec

open LineSpec (items Denotes Faulty)

/-- **A line list is read iff its items are in the grammar, as what they denote.**

A list can be read iff each of its items denotes a range of lines. The set read from it then holds a line iff one
of these ranges does. And a list is refused for a fault iff that is what is wrong with the first of its items that
denotes nothing. -/
theorem LineSet.ofSpec_reads (spec : String) :
    ((∃ set, ofSpec spec = .ok set) ↔ ∀ item ∈ items spec.toList, ∃ range, Denotes item range) ∧
    (∀ set, ofSpec spec = .ok set → ∀ line, set.contains line = true ↔
      ∃ item ∈ items spec.toList, ∃ range, Denotes item range ∧ range.first ≤ line ∧ line ≤ range.last) ∧
    ∀ fault, ofSpec spec = .error fault ↔ ∃ front item rest, items spec.toList = front ++ item :: rest ∧
      (∀ good ∈ front, ∃ range, Denotes good range) ∧ Faulty item fault := by
  have hread : (∃ set, ofSpec spec = .ok set) ↔ ∃ ranges, LineSpec.ranges? spec = .ok ranges := by
    rw [ofSpec_eq]
    rcases LineSpec.ranges? spec with fault | ranges
    · exact iff_of_false nofun nofun
    · exact iff_of_true ⟨_, rfl⟩ ⟨_, rfl⟩
  have hranges : (∃ set, ofSpec spec = .ok set) ↔ ∀ item ∈ items spec.toList, ∃ range, Denotes item range :=
    hread.trans LineSpec.ranges?_isOk_iff
  refine ⟨hranges, ?_, ?_⟩
  · intro set hset line
    rw [contains_ofSpec_iff hset]
    refine exists_congr fun item => and_congr_right fun hitem => ?_
    obtain ⟨range, hrange⟩ := hranges.mp ⟨set, hset⟩ item hitem
    constructor
    · exact fun hcovers => ⟨range, hrange, (LineSpec.covers_iff_of_denotes hrange).mp hcovers⟩
    · rintro ⟨other, hother, hline⟩
      exact (LineSpec.covers_iff_of_denotes hother).mpr hline
  · intro fault
    have herror : ofSpec spec = .error fault ↔ LineSpec.ranges? spec = .error fault := by
      rw [ofSpec_eq]
      rcases LineSpec.ranges? spec with other | ranges
      · exact ⟨fun h => congrArg _ (Except.error.inj h), fun h => congrArg _ (Except.error.inj h)⟩
      · exact iff_of_false nofun nofun
    rw [herror, LineSpec.ranges?, LineSpec.mapM_eq_error_iff]
    simp only [LineSpec.readItem_eq_ok_iff, LineSpec.readItem_eq_error_iff]

/-- Signs, leading zeros and blanks of any width do not count. Of two faults in one item the left one does, and of
two faulty items the first. -/
theorem LineSet.ofSpec_reads_signed :
    ofSpec "7, +02 - 4,,3-\u20035" = .ok ⟨[⟨2, 5⟩, ⟨7, 7⟩]⟩ ∧
    (∃ item ∈ items "7, +02 - 4,,3-\u20035".toList, ∃ range, Denotes item range ∧ range.first ≤ 5 ∧ 5 ≤ range.last) ∧
    ofSpec "1, 0--2, 5-3" = .error .zero := by
  have hset : ofSpec "7, +02 - 4,,3-\u20035" = .ok ⟨[⟨2, 5⟩, ⟨7, 7⟩]⟩ := by rfl
  obtain ⟨-, hholds, -⟩ := ofSpec_reads "7, +02 - 4,,3-\u20035"
  obtain ⟨-, -, hrefused⟩ := ofSpec_reads "1, 0--2, 5-3"
  refine ⟨hset, (hholds _ hset 5).mp rfl, (hrefused .zero).mpr ?_⟩
  refine ⟨["1".toList], "0--2".toList, ["5-3".toList], by decide, ?_, ?_⟩
  · exact List.forall_mem_singleton.mpr ⟨⟨1, 1⟩, LineSpec.readItem_eq_ok_iff.mp rfl⟩
  · have hzero : LineSpec.Numeral 0 (Text.trim ['0']) :=
      .unsigned (by decide) (List.forall_mem_singleton.mpr (by decide)) rfl
    exact @Faulty.left ['0'] ['-', '2'] _ (by decide) (.zero hzero)

end CodeMarkup
