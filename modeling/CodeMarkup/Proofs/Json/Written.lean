import CodeMarkup.Json.Basic

/-!
# Reading what is written

A written string is read back as what was written, in front of any text (`readString_written`): each
character is written as one unit, and the only units that are numbers stand for controls, which are no halves
of pairs. So is a whole number, in front of a text that does not go on with it (`readWord_decimal`).
-/

namespace CodeMarkup.Json

/-! ## Blanks -/

theorem skipBlanks_append {blanks : List Char} (h : ∀ c ∈ blanks, isBlank c = true) (text : List Char) :
    skipBlanks (blanks ++ text) = skipBlanks text :=
  List.dropWhile_append_of_pos h

theorem skipBlanks_cons_of_not {c : Char} (h : isBlank c = false) (text : List Char) :
    skipBlanks (c :: text) = c :: text :=
  List.dropWhile_cons_of_neg (by simp [h])

/-- No digit is a blank. -/
theorem isBlank_of_isDigit {c : Char} (h : c.isDigit = true) : isBlank c = false := by
  rcases hblank : isBlank c with _ | _
  · rfl
  · simp only [isBlank, Bool.or_eq_true, decide_eq_true_eq] at hblank
    rcases hblank with ((rfl | rfl) | rfl) | rfl
    all_goals cases h

/-! ## Strings -/

/-- The unit that a written character is read as: for a control without a short escape its number. -/
def writtenUnit (c : Char) : StringUnit :=
  if c.toNat < 0x20 ∧ c ∉ ['\x08', '\x0C', '\n', '\r', '\t'] then .code c.toNat else .char c

theorem joinUnits_code {value : Nat} (h : value < 0xD800) (units : List StringUnit) :
    joinUnits (.code value :: units) = (joinUnits units).map (Char.ofNat value :: ·) := by
  have hlead : isLead value = false := by simp [isLead]; omega
  have htrail : isTrail value = false := by simp [isTrail]; omega
  rcases units with _ | ⟨_ | _, rest⟩
  · simp [joinUnits, hlead, htrail]
  · simp [joinUnits, hlead, htrail]
  · simp [joinUnits, hlead, htrail]

/-- Joining goes character by character, as no control is half a pair. -/
theorem joinUnits_writtenUnit (c : Char) (units : List StringUnit) :
    joinUnits (writtenUnit c :: units) = (joinUnits units).map (c :: ·) := by
  unfold writtenUnit
  split
  · rename_i hcontrol
    rw [joinUnits_code (by omega), Char.ofNat_toNat]
  · rw [joinUnits]

/-- The digits of a control's number give it back. -/
theorem hexadecimalValue?_control {value : Nat} (h : value < 0x20) :
    Text.hexadecimalValue? ['0', '0', Nat.digitChar (value / 16), Nat.digitChar (value % 16)] = some value := by
  revert h value
  decide

/-- What is read of a string one unit further on. -/
def withUnit (unit : StringUnit) : List StringUnit × List Char → List StringUnit × List Char :=
  fun (units, rest) => (unit :: units, rest)

theorem readUnits_escape {e c : Char} (h : shortEscape? e = some c) (rest : List Char) :
    readUnits ('\\' :: e :: rest) = (readUnits rest).map (withUnit (.char c)) := by
  have hu : e ≠ 'u' := by
    rintro rfl
    cases h
  rw [readUnits]
  · rw [h]
    rcases readUnits rest with _ | read
    · rfl
    · rfl
  · exact fun _ _ _ _ _ he => (hu he).elim

theorem readUnits_code {a b c d : Char} {value : Nat} (h : Text.hexadecimalValue? [a, b, c, d] = some value)
    (rest : List Char) :
    readUnits ('\\' :: 'u' :: a :: b :: c :: d :: rest) = (readUnits rest).map (withUnit (.code value)) := by
  rw [readUnits, h]
  rcases readUnits rest with _ | read
  · rfl
  · rfl

theorem readUnits_plain {c : Char} (hcontrol : ¬ c.toNat < 0x20) (hquote : c ≠ '"') (hslash : c ≠ '\\')
    (rest : List Char) : readUnits (c :: rest) = (readUnits rest).map (withUnit (.char c)) := by
  rw [readUnits]
  · simp only [hcontrol, hslash, or_self, if_false]
    rcases readUnits rest with _ | read
    · rfl
    · rfl
  · exact hquote
  · exact fun _ _ _ _ _ hc => (hslash hc).elim
  · exact fun _ _ hc => (hslash hc).elim

/-- A written character is read as its unit. -/
theorem readUnits_stringChar (c : Char) (rest : List Char) :
    readUnits (stringChar c ++ rest) = (readUnits rest).map (withUnit (writtenUnit c)) := by
  unfold stringChar
  split
  case h_8 hquote hslash _ _ _ _ _ =>
    split
    · rename_i hcontrol
      have hunit : writtenUnit c = .code c.toNat := by
        simp_all [writtenUnit]
      rw [hunit]
      exact readUnits_code (hexadecimalValue?_control hcontrol) rest
    · rename_i hcontrol
      have hunit : writtenUnit c = .char c := if_neg fun h => hcontrol h.1
      rw [hunit]
      exact readUnits_plain hcontrol hquote hslash rest
  all_goals exact readUnits_escape rfl rest

theorem readUnits_written (chars rest : List Char) :
    readUnits (chars.flatMap stringChar ++ '"' :: rest) = some (chars.map writtenUnit, rest) := by
  induction chars with
  | nil => rfl
  | cons c chars ih => rw [List.flatMap_cons, List.append_assoc, readUnits_stringChar, ih]; rfl

theorem joinUnits_map_writtenUnit (chars : List Char) : joinUnits (chars.map writtenUnit) = some chars := by
  induction chars with
  | nil => rfl
  | cons c chars ih => rw [List.map_cons, joinUnits_writtenUnit, ih]; rfl

/-- **A written string is read back**, in front of any text. -/
theorem readString_written (chars rest : List Char) :
    readString (chars.flatMap stringChar ++ '"' :: rest) = some (chars, rest) := by
  rw [readString, readUnits_written]
  simp [joinUnits_map_writtenUnit]

/-! ## Whole numbers -/

theorem decimalValue_decimal (value : Nat) : Text.decimalValue (Text.decimal value) = value := by
  have hdigits := Nat.ofDigitChars_ten_toDigits (n := value)
  simp only [Nat.ofDigitChars_eq_foldl, Nat.mul_comm 10] at hdigits
  exact hdigits

theorem isDigit_of_mem_decimal {value : Nat} {c : Char} (h : c ∈ Text.decimal value) : c.isDigit = true :=
  Nat.isDigit_of_mem_toDigits (by decide) (by decide) h

/-- Only zero is written with a zero in front. -/
theorem eq_zero_of_head?_decimal {value : Nat} (h : (Text.decimal value).head? = some '0') : value = 0 := by
  induction value using Nat.strongRecOn with
  | _ value ih =>
    rw [Text.decimal, Nat.toDigits_eq_if (by decide)] at h
    split at h
    · simpa using h
    · rename_i hlarge
      rw [List.head?_append, List.head?_eq_some_head Nat.toDigits_ne_nil, Option.some_or,
        ← List.head?_eq_some_head Nat.toDigits_ne_nil] at h
      have := ih (value / 10) (by omega) h
      omega

/-- A text that does not go on with a number. -/
def EndsWord (rest : List Char) : Prop :=
  ∀ c, rest.head? = some c → c.isDigit = false ∧ c ≠ '.' ∧ c ≠ 'e' ∧ c ≠ 'E'

/-- A whole number is read as what its digits write, in front of a text that does not go on with it. -/
theorem readWord_append {digits rest : List Char} (hsome : digits ≠ [])
    (hdigits : ∀ c ∈ digits, c.isDigit = true) (hzero : digits.head? = some '0' → digits.length = 1)
    (h : EndsWord rest) : readWord (digits ++ rest) = some (Text.decimalValue digits, rest) := by
  have htake : rest.takeWhile Char.isDigit = [] := by
    rcases rest with _ | ⟨c, rest⟩
    · rfl
    · rw [List.takeWhile_cons_of_neg]
      simp [(h c rfl).1]
  have hdrop : rest.dropWhile Char.isDigit = rest := by
    rcases rest with _ | ⟨c, rest⟩
    · rfl
    · rw [List.dropWhile_cons_of_neg]
      simp [(h c rfl).1]
  have hfront : (digits.length > 1 && digits.head? == some '0') = false := by
    rw [Bool.and_eq_false_imp, beq_eq_false_iff_ne]
    intro hlong hhead
    rw [hzero hhead] at hlong
    cases hlong
  have hempty : digits.isEmpty = false := List.isEmpty_eq_false_iff.mpr hsome
  unfold readWord
  dsimp only
  rw [List.takeWhile_append_of_pos hdigits, List.dropWhile_append_of_pos hdigits, htake, hdrop, List.append_nil,
    hfront, hempty]
  simp only [Bool.or_self, Bool.false_eq_true, if_false]
  split
  · rename_i hpoint
    exact ((h _ hpoint).2.1 rfl).elim
  · rename_i he
    exact ((h _ he).2.2.1 rfl).elim
  · rename_i hE
    exact ((h _ hE).2.2.2 rfl).elim
  · rfl

/-- **A written number is read back**, in front of a text that does not go on with it. -/
theorem readWord_decimal (value : Nat) {rest : List Char} (h : EndsWord rest) :
    readWord (Text.decimal value ++ rest) = some (value, rest) := by
  have hsome : Text.decimal value ≠ [] := Nat.toDigits_ne_nil
  have hzero : (Text.decimal value).head? = some '0' → (Text.decimal value).length = 1 := by
    intro hhead
    rw [eq_zero_of_head?_decimal hhead]
    rfl
  rw [readWord_append hsome (fun _ => isDigit_of_mem_decimal) hzero h, decimalValue_decimal]

end CodeMarkup.Json
