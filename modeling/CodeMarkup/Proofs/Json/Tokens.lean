import CodeMarkup.Proofs.Json.Written

/-!
# The tokens of JSON texts

What a well-formed text is, said without readers. Each form relates a text that starts with it to the text that is
left behind it: so do blanks (`Blanks`), the units of a string (`Units`), whole numbers (`Word`) and numbers of any
kind (`Number`).

Readers and forms agree. A string is read iff the text has the form of one (`readString_eq_some_iff`). A number is
read iff the text starts with one, provided that what is left does not go on with it (`readWord_eq_some_iff`): where
a number ends only what follows can tell.
-/

namespace CodeMarkup.Json

/-! ## Blanks -/

/-- A text starts with blanks, as many as may be. -/
inductive Blanks : List Char → List Char → Prop where
  /-- with none -/
  | nil {rest : List Char} : Blanks rest rest
  /-- with one and those after it -/
  | cons {c : Char} {text rest : List Char} (hblank : isBlank c = true) (hrest : Blanks text rest) :
    Blanks (c :: text) rest

variable {text start middle rest : List Char} {c : Char}

theorem blanks_skipBlanks (text : List Char) : Blanks text (skipBlanks text) := by
  induction text with
  | nil => exact .nil
  | cons c text ih =>
    rcases hblank : isBlank c with _ | _
    · rw [skipBlanks_cons_of_not hblank]
      exact .nil
    · rw [skipBlanks, List.dropWhile_cons_of_pos hblank]
      exact .cons hblank ih

/-- Blanks may be skipped, up to something else. -/
theorem Blanks.skip (h : Blanks text rest) (hrest : skipBlanks rest = rest) : skipBlanks text = rest := by
  induction h with
  | nil => exact hrest
  | cons hblank _ ih => exact (List.dropWhile_cons_of_pos hblank).trans (ih hrest)

theorem blanks_of_skipBlanks (h : skipBlanks text = rest) : Blanks text rest :=
  h ▸ blanks_skipBlanks text

theorem Blanks.length_le (h : Blanks text rest) : rest.length ≤ text.length := by
  induction h with
  | nil => exact Nat.le_refl _
  | cons _ _ ih => exact Nat.le_succ_of_le ih

theorem Blanks.trans (h : Blanks text middle) (hrest : Blanks middle rest) : Blanks text rest := by
  induction h with
  | nil => exact hrest
  | cons hblank _ ih => exact .cons hblank (ih hrest)

/-- Up to a token a text has blanks only iff the token is left when they are skipped. -/
theorem skipBlanks_eq_cons_iff (hc : isBlank c = false) : skipBlanks text = c :: rest ↔ Blanks text (c :: rest) :=
  ⟨blanks_of_skipBlanks, fun h => h.skip (skipBlanks_cons_of_not hc rest)⟩

/-- A text with blanks in front of what stands after a value does not go on with a number. -/
theorem Blanks.endsWord (h : Blanks text (c :: rest)) (hc : c ∈ [',', ']', '}']) : EndsWord text := by
  cases h with
  | nil =>
    rintro _ ⟨⟩
    simp only [List.mem_cons, List.not_mem_nil, or_false] at hc
    rcases hc with rfl | rfl | rfl <;> decide
  | cons hblank _ =>
    rintro _ ⟨⟩
    simp only [isBlank, Bool.or_eq_true, decide_eq_true_eq] at hblank
    rcases hblank with ((rfl | rfl) | rfl) | rfl
    all_goals decide

/-! ## Strings -/

/-- A text starts with a unit of a string. -/
inductive UnitAt : StringUnit → List Char → List Char → Prop where
  /-- a character that stands for itself -/
  | plain {c : Char} {rest : List Char} (hcontrol : ¬ c.toNat < 0x20) (hquote : c ≠ '"') (hslash : c ≠ '\\') :
    UnitAt (.char c) (c :: rest) rest
  /-- a character by its short escape -/
  | short {e c : Char} {rest : List Char} (hescape : shortEscape? e = some c) :
    UnitAt (.char c) ('\\' :: e :: rest) rest
  /-- a number in four hexadecimal digits -/
  | code {a b c d : Char} {value : Nat} {rest : List Char}
      (hvalue : Text.hexadecimalValue? [a, b, c, d] = some value) :
    UnitAt (.code value) ('\\' :: 'u' :: a :: b :: c :: d :: rest) rest

/-- A text starts with units and the quotation mark that ends them. -/
inductive Units : List StringUnit → List Char → List Char → Prop where
  /-- the string ends -/
  | close {rest : List Char} : Units [] ('"' :: rest) rest
  /-- there is another unit -/
  | cons {unit : StringUnit} {units : List StringUnit} {text middle rest : List Char}
      (hunit : UnitAt unit text middle) (hrest : Units units middle rest) : Units (unit :: units) text rest

/-- A text starts with what a string has between its quotation marks, and with the second of these. -/
def Quoted (chars text rest : List Char) : Prop :=
  ∃ units, Units units text rest ∧ joinUnits units = some chars

variable {unit : StringUnit} {units : List StringUnit}

/-- Reading goes unit by unit. -/
theorem UnitAt.readUnits (h : UnitAt unit text rest) :
    readUnits text = (readUnits rest).map (withUnit unit) := by
  cases h with
  | plain hcontrol hquote hslash => exact readUnits_plain hcontrol hquote hslash rest
  | short hescape => exact readUnits_escape hescape rest
  | code hvalue => exact readUnits_code hvalue rest

/-- **The units of a string are read iff the text has its form.** -/
theorem readUnits_eq_some_iff : readUnits text = some (units, rest) ↔ Units units text rest := by
  constructor
  · intro h
    induction text using readUnits.induct generalizing units rest with
    | case1 => cases h
    | case2 after =>
      cases h
      exact .close
    | case3 a b c d after ih =>
      rw [readUnits] at h
      obtain ⟨value, hvalue, h⟩ := Option.bind_eq_some_iff.mp h
      obtain ⟨⟨more, left⟩, hmore, h⟩ := Option.bind_eq_some_iff.mp h
      cases h
      exact .cons (.code hvalue) (ih hmore)
    | case4 e after hnot ih =>
      rw [readUnits] at h
      · obtain ⟨c, hescape, h⟩ := Option.bind_eq_some_iff.mp h
        obtain ⟨⟨more, left⟩, hmore, h⟩ := Option.bind_eq_some_iff.mp h
        cases h
        exact .cons (.short hescape) (ih hmore)
      · exact hnot
    | case5 c after hquote hcode hescape hbad ih =>
      simp [readUnits, hbad] at h
    | case6 c after hquote hcode hescape hgood ih =>
      obtain ⟨hcontrol, hslash⟩ := not_or.mp hgood
      rw [readUnits_plain hcontrol hquote hslash] at h
      obtain ⟨⟨more, left⟩, hmore, h⟩ := Option.map_eq_some_iff.mp h
      cases h
      exact .cons (.plain hcontrol hquote hslash) (ih hmore)
  · intro h
    induction h with
    | close => rfl
    | cons hunit _ ih => rw [hunit.readUnits, ih]; rfl

/-- **A string is read iff the text has its form**, and as what its units are together. -/
theorem readString_eq_some_iff {chars : List Char} : readString text = some (chars, rest) ↔ Quoted chars text rest := by
  rw [readString, Quoted]
  constructor
  · intro h
    obtain ⟨⟨units, left⟩, hunits, h⟩ := Option.bind_eq_some_iff.mp h
    obtain ⟨joined, hjoin, h⟩ := Option.bind_eq_some_iff.mp h
    cases h
    exact ⟨units, readUnits_eq_some_iff.mp hunits, hjoin⟩
  · rintro ⟨units, hunits, hjoin⟩
    rw [readUnits_eq_some_iff.mpr hunits]
    simp [hjoin]

theorem UnitAt.length_lt (h : UnitAt unit text rest) : rest.length < text.length := by
  cases h with
  | plain | short | code =>
    simp only [List.length_cons]
    omega

theorem Units.length_lt (h : Units units text rest) : rest.length < text.length := by
  induction h with
  | close => exact Nat.lt_succ_self _
  | cons hunit _ ih => exact Nat.lt_trans ih hunit.length_lt

/-! ## Numbers -/

/-- A text starts with one digit or more. -/
inductive Digits : List Char → List Char → Prop where
  /-- with one -/
  | one {c : Char} {rest : List Char} (hdigit : c.isDigit = true) : Digits (c :: rest) rest
  /-- with one and those after it -/
  | more {c : Char} {text rest : List Char} (hdigit : c.isDigit = true) (hrest : Digits text rest) :
    Digits (c :: text) rest

/-- A text starts with a whole number: zero, or digits of which the first is not zero. -/
inductive Whole : List Char → List Char → Prop where
  /-- zero -/
  | zero {rest : List Char} : Whole ('0' :: rest) rest
  /-- any other number -/
  | digits {c : Char} {text rest : List Char} (hzero : c ≠ '0') (hdigits : Digits (c :: text) rest) :
    Whole (c :: text) rest

/-- A text starts with a fraction, if with any. -/
inductive Fraction : List Char → List Char → Prop where
  /-- with none -/
  | absent {rest : List Char} : Fraction rest rest
  /-- with a point and digits -/
  | present {text rest : List Char} (hdigits : Digits text rest) : Fraction ('.' :: text) rest

/-- A text starts with an exponent, if with any. -/
inductive Exponent : List Char → List Char → Prop where
  /-- with none -/
  | absent {rest : List Char} : Exponent rest rest
  /-- with one without a sign -/
  | unsigned {e : Char} {text rest : List Char} (he : e = 'e' ∨ e = 'E') (hdigits : Digits text rest) :
    Exponent (e :: text) rest
  /-- with one that has a sign -/
  | signed {e sign : Char} {text rest : List Char} (he : e = 'e' ∨ e = 'E') (hsign : sign = '+' ∨ sign = '-')
      (hdigits : Digits text rest) : Exponent (e :: sign :: text) rest

/-- A text starts with a number that has no sign. -/
def Unsigned (text rest : List Char) : Prop :=
  ∃ point tail, Whole text point ∧ Fraction point tail ∧ Exponent tail rest

/-- A text starts with a number. -/
inductive Number : List Char → List Char → Prop where
  /-- with one that has no sign -/
  | unsigned {text rest : List Char} (h : Unsigned text rest) : Number text rest
  /-- with a negative one -/
  | negative {text rest : List Char} (h : Unsigned text rest) : Number ('-' :: text) rest

/-- A text starts with a whole number that has neither sign nor fraction nor exponent. -/
inductive Word (value : Nat) : List Char → List Char → Prop where
  /-- its digits, with a zero in front only where it is the only one -/
  | digits {digits rest : List Char} (hsome : digits ≠ []) (hdigits : ∀ c ∈ digits, c.isDigit = true)
      (hzero : digits.head? = some '0' → digits.length = 1) (hvalue : Text.decimalValue digits = value) :
    Word value (digits ++ rest) rest

/-- A text that does not go on with a digit. -/
def EndsDigits (rest : List Char) : Prop :=
  ∀ c, rest.head? = some c → c.isDigit = false

theorem EndsWord.endsDigits (h : EndsWord rest) : EndsDigits rest :=
  fun c hc => (h c hc).1

theorem digits_dropWhile (hdigit : c.isDigit = true) (text : List Char) :
    Digits (c :: text) (text.dropWhile Char.isDigit) := by
  induction text generalizing c with
  | nil => exact .one hdigit
  | cons second text ih =>
    rcases hsecond : second.isDigit with _ | _
    · rw [List.dropWhile_cons_of_neg (by simp [hsecond])]
      exact .one hdigit
    · rw [List.dropWhile_cons_of_pos hsecond]
      exact .more hdigit (ih hsecond)

theorem digits_of_skipDigits (h : skipDigits text = some rest) : Digits text rest := by
  unfold skipDigits at h
  split at h
  · split at h
    · rename_i hdigit
      obtain rfl := Option.some.inj h
      exact digits_dropWhile hdigit _
    · cases h
  · cases h

theorem dropWhile_of_endsDigits (h : EndsDigits rest) : rest.dropWhile Char.isDigit = rest := by
  rcases rest with _ | ⟨c, rest⟩
  · rfl
  · exact List.dropWhile_cons_of_neg (by simp [h c rfl])

theorem Digits.skip (h : Digits text rest) (hrest : EndsDigits rest) : skipDigits text = some rest := by
  induction h with
  | one hdigit => rw [skipDigits, if_pos hdigit, dropWhile_of_endsDigits hrest]
  | more hdigit htext ih =>
    rw [skipDigits, if_pos hdigit, ← ih hrest]
    cases htext with
    | one hsecond | more hsecond => rw [skipDigits, if_pos hsecond, List.dropWhile_cons_of_pos hsecond]

theorem exponent_of_skipExponent (h : skipExponent text = some rest) : Exponent text rest := by
  unfold skipExponent at h
  split at h
  · split at h
    · exact .signed (Or.inl rfl) (Or.inl rfl) (digits_of_skipDigits h)
    · exact .signed (Or.inl rfl) (Or.inr rfl) (digits_of_skipDigits h)
    · exact .unsigned (Or.inl rfl) (digits_of_skipDigits h)
  · split at h
    · exact .signed (Or.inr rfl) (Or.inl rfl) (digits_of_skipDigits h)
    · exact .signed (Or.inr rfl) (Or.inr rfl) (digits_of_skipDigits h)
    · exact .unsigned (Or.inr rfl) (digits_of_skipDigits h)
  · obtain rfl := Option.some.inj h
    exact .absent

theorem Exponent.skip (h : Exponent text rest) (hrest : EndsWord rest) : skipExponent text = some rest := by
  cases h with
  | absent =>
    unfold skipExponent
    split
    · exact absurd rfl (hrest _ rfl).2.2.1
    · exact absurd rfl (hrest _ rfl).2.2.2
    · rfl
  | unsigned he hdigits =>
    have hskip := hdigits.skip hrest.endsDigits
    rcases he with rfl | rfl
    all_goals
      cases hdigits with
      | one hdigit | more hdigit =>
        rw [skipExponent]
        · exact hskip
        -- a sign is no digit
        all_goals
          rintro _ ⟨⟩
          cases hdigit
  | signed he hsign hdigits =>
    rcases he with rfl | rfl <;> rcases hsign with rfl | rfl <;> exact hdigits.skip hrest.endsDigits

theorem Exponent.endsDigits (h : Exponent text rest) (hrest : EndsWord rest) : EndsDigits text := by
  cases h with
  | absent => exact hrest.endsDigits
  | unsigned he | signed he =>
    rintro _ ⟨⟩
    rcases he with rfl | rfl <;> rfl

theorem fraction_of_skipFraction (h : skipFraction text = some rest) :
    ∃ tail, Fraction text tail ∧ Exponent tail rest := by
  unfold skipFraction at h
  split at h
  · obtain ⟨tail, hdigits, hexponent⟩ := Option.bind_eq_some_iff.mp h
    exact ⟨tail, .present (digits_of_skipDigits hdigits), exponent_of_skipExponent hexponent⟩
  · exact ⟨text, .absent, exponent_of_skipExponent h⟩

theorem Fraction.skip {tail : List Char} (h : Fraction text tail) (hexponent : Exponent tail rest)
    (hrest : EndsWord rest) : skipFraction text = some rest := by
  cases h with
  | absent =>
    rw [skipFraction]
    · exact hexponent.skip hrest
    · rintro _ rfl
      cases hexponent with
      | absent => exact (hrest _ rfl).2.1 rfl
      | unsigned he | signed he => rcases he with he | he <;> cases he
  | present hdigits =>
    rw [skipFraction, hdigits.skip (hexponent.endsDigits hrest)]
    exact hexponent.skip hrest

theorem Fraction.endsDigits {tail : List Char} (h : Fraction text tail) (htail : EndsDigits tail) :
    EndsDigits text := by
  cases h with
  | absent => exact htail
  | present =>
    rintro _ ⟨⟩
    rfl

theorem unsigned_of_skipNumber (h : skipNumber text = some rest) : Unsigned text rest := by
  unfold skipNumber at h
  split at h
  · rename_i point
    split at h
    · cases h
    · obtain ⟨tail, hfraction, hexponent⟩ := fraction_of_skipFraction h
      exact ⟨point, tail, .zero, hfraction, hexponent⟩
  · rename_i hzero
    obtain ⟨point, hdigits, h⟩ := Option.bind_eq_some_iff.mp h
    obtain ⟨tail, hfraction, hexponent⟩ := fraction_of_skipFraction h
    refine ⟨point, tail, ?_, hfraction, hexponent⟩
    rcases text with _ | ⟨c, text⟩
    · cases hdigits
    · exact .digits (fun hc => hzero text (hc ▸ rfl)) (digits_of_skipDigits hdigits)

theorem Unsigned.skip (h : Unsigned text rest) (hrest : EndsWord rest) : skipNumber text = some rest := by
  obtain ⟨point, tail, hwhole, hfraction, hexponent⟩ := h
  have hpoint := hfraction.endsDigits (hexponent.endsDigits hrest)
  cases hwhole with
  | zero =>
    have hnext : (point.head?.map Char.isDigit).getD false = false := by
      rcases point with _ | ⟨c, point⟩
      · rfl
      · exact hpoint c rfl
    rw [skipNumber, hnext]
    exact hfraction.skip hexponent hrest
  | digits hzero hdigits =>
    rw [skipNumber]
    · rw [hdigits.skip hpoint]
      exact hfraction.skip hexponent hrest
    · rintro _ ⟨⟩
      exact hzero rfl

/-- A whole number that was read stands in the text. -/
theorem word_of_readWord {value : Nat} (h : readWord text = some (value, rest)) : Word value text rest := by
  unfold readWord at h
  dsimp only at h
  split at h
  · cases h
  · rename_i hgood
    rw [Bool.or_eq_true, not_or, List.isEmpty_iff, Bool.and_eq_true, not_and, decide_eq_true_eq, beq_iff_eq] at hgood
    have hzero : (text.takeWhile Char.isDigit).head? = some '0' → (text.takeWhile Char.isDigit).length = 1 := by
      intro hhead
      have hpos := List.length_pos_iff.mpr hgood.1
      have hshort := mt hgood.2 (not_not_intro hhead)
      omega
    split at h
    · cases h
    · cases h
    · cases h
    · obtain ⟨rfl, rfl⟩ := Prod.mk.inj (Option.some.inj h)
      have hword : Word _ (text.takeWhile Char.isDigit ++ text.dropWhile Char.isDigit) (text.dropWhile Char.isDigit) :=
        .digits hgood.1 (List.all_eq_true.mp List.all_takeWhile) hzero rfl
      rwa [List.takeWhile_append_dropWhile] at hword

/-- **A whole number is read iff the text starts with one**, in front of a text that does not go on with it. -/
theorem readWord_eq_some_iff {value : Nat} (hrest : EndsWord rest) :
    readWord text = some (value, rest) ↔ Word value text rest := by
  refine ⟨word_of_readWord, ?_⟩
  rintro ⟨hsome, hdigits, hzero, rfl⟩
  exact readWord_append hsome hdigits hzero hrest

/-- The same for a whole number that may not be too large. -/
theorem readWordUpTo_eq_some_iff {limit value : Nat} (hrest : EndsWord rest) :
    readWordUpTo limit text = some (value, rest) ↔ Word value text rest ∧ value ≤ limit := by
  rw [readWordUpTo, Option.filter_eq_some_iff, readWord_eq_some_iff hrest, decide_eq_true_eq]

theorem Digits.length_lt (h : Digits text rest) : rest.length < text.length := by
  induction h with
  | one => exact Nat.lt_succ_self _
  | more _ _ ih => exact Nat.lt_succ_of_lt ih

theorem Unsigned.length_lt (h : Unsigned text rest) : rest.length < text.length := by
  obtain ⟨point, tail, hwhole, hfraction, hexponent⟩ := h
  have hpoint : point.length < text.length := by
    cases hwhole with
    | zero => exact Nat.lt_succ_self _
    | digits _ hdigits => exact hdigits.length_lt
  have htail : tail.length ≤ point.length := by
    cases hfraction with
    | absent => exact Nat.le_refl _
    | present hdigits => exact Nat.le_of_lt (Nat.lt_succ_of_lt hdigits.length_lt)
  have hrest : rest.length ≤ tail.length := by
    cases hexponent with
    | absent => exact Nat.le_refl _
    | unsigned _ hdigits => exact Nat.le_of_lt (Nat.lt_succ_of_lt hdigits.length_lt)
    | signed _ _ hdigits => exact Nat.le_of_lt (Nat.lt_succ_of_lt (Nat.lt_succ_of_lt hdigits.length_lt))
  omega

theorem Word.length_lt {value : Nat} (h : Word value text rest) : rest.length < text.length := by
  obtain ⟨hsome, -, -, -⟩ := h
  rw [List.length_append]
  have := List.length_pos_iff.mpr hsome
  omega

theorem length_of_readWordUpTo {limit value : Nat} (h : readWordUpTo limit text = some (value, rest)) :
    rest.length ≤ text.length :=
  Nat.le_of_lt (word_of_readWord (Option.filter_eq_some_iff.mp h).1).length_lt

theorem Digits.head (h : Digits text rest) : ∃ c tail, text = c :: tail ∧ c.isDigit = true := by
  cases h with
  | one hdigit | more hdigit => exact ⟨_, _, rfl, hdigit⟩

theorem Unsigned.head (h : Unsigned text rest) : ∃ c tail, text = c :: tail ∧ c.isDigit = true := by
  obtain ⟨point, tail, hwhole, -⟩ := h
  cases hwhole with
  | zero => exact ⟨_, _, rfl, rfl⟩
  | digits _ hdigits => exact hdigits.head

theorem Word.skipBlanks {value : Nat} (h : Word value text rest) : skipBlanks text = text := by
  obtain ⟨hsome, hdigits, -, -⟩ := h
  obtain ⟨c, digits, rfl⟩ := List.exists_cons_of_ne_nil hsome
  exact skipBlanks_cons_of_not (isBlank_of_isDigit (hdigits c List.mem_cons_self)) _

end CodeMarkup.Json
