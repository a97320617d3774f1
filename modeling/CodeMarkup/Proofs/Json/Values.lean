import CodeMarkup.Proofs.Json.Tokens

/-!
# Well-formed JSON values

Values, the elements of arrays and the members of objects are defined together (`WellFormed`), however deep they
nest. A value is skipped iff it is well formed, in front of a text that does not go on with a number
(`skip_eq_some_iff`). The fuel of skipping is no limit: what is inside a part is shorter than the part.
-/

namespace CodeMarkup.Json

variable {text middle rest : List Char} {c : Char} {units : List StringUnit}

/-! ## Forms -/

/-- A text starts with a member's name, up to its value. -/
inductive Named (units : List StringUnit) : List Char → List Char → Prop where
  /-- the name, a colon, and blanks wherever they may be -/
  | colon {text name colon before value : List Char} (hquote : Blanks text ('"' :: name))
      (hname : Units units name colon) (hcolon : Blanks colon (':' :: before)) (hblanks : Blanks before value) :
    Named units text value

theorem Named.length_lt {value : List Char} (h : Named units text value) : value.length < text.length := by
  obtain ⟨hquote, hname, hcolon, hblanks⟩ := h
  have hquote := hquote.length_le
  have hname := hname.length_lt
  have hcolon := hcolon.length_le
  have hblanks := hblanks.length_le
  rw [List.length_cons] at hquote hcolon
  omega

/-- Blanks in front of a name do not count. -/
theorem Named.of_blanks {value : List Char} (h : Named units middle value) (htext : Blanks text middle) :
    Named units text value := by
  obtain ⟨hquote, hname, hcolon, hblanks⟩ := h
  exact .colon (htext.trans hquote) hname hcolon hblanks

/-- The parts of a text that nest. -/
inductive Part where
  /-- a value -/
  | value
  /-- what an array has after its bracket, if it is not empty -/
  | elements
  /-- what an object has after its brace, if it is not empty -/
  | members

/-- A text starts with a well-formed part. -/
inductive WellFormed : Part → List Char → List Char → Prop where
  /-- the value is nothing -/
  | null {rest : List Char} : WellFormed .value ('n' :: 'u' :: 'l' :: 'l' :: rest) rest
  /-- the value is true -/
  | yes {rest : List Char} : WellFormed .value ('t' :: 'r' :: 'u' :: 'e' :: rest) rest
  /-- the value is false -/
  | no {rest : List Char} : WellFormed .value ('f' :: 'a' :: 'l' :: 's' :: 'e' :: rest) rest
  /-- the value is a string -/
  | string {units : List StringUnit} {text rest : List Char} (hunits : Units units text rest) :
    WellFormed .value ('"' :: text) rest
  /-- the value is a number -/
  | number {text rest : List Char} (hnumber : Number text rest) : WellFormed .value text rest
  /-- the value is an array of nothing -/
  | emptyArray {text rest : List Char} (hend : Blanks text (']' :: rest)) : WellFormed .value ('[' :: text) rest
  /-- the value is an array -/
  | array {text rest : List Char} (helements : WellFormed .elements text rest) :
    WellFormed .value ('[' :: text) rest
  /-- the value is an object of nothing -/
  | emptyObject {text rest : List Char} (hend : Blanks text ('}' :: rest)) : WellFormed .value ('{' :: text) rest
  /-- the value is an object -/
  | object {text rest : List Char} (hmembers : WellFormed .members text rest) :
    WellFormed .value ('{' :: text) rest
  /-- there is one element left -/
  | lastElement {text value after rest : List Char} (hblanks : Blanks text value)
      (hvalue : WellFormed .value value after) (hend : Blanks after (']' :: rest)) : WellFormed .elements text rest
  /-- there are more elements -/
  | element {text value after next rest : List Char} (hblanks : Blanks text value)
      (hvalue : WellFormed .value value after) (hcomma : Blanks after (',' :: next))
      (hrest : WellFormed .elements next rest) : WellFormed .elements text rest
  /-- there is one member left -/
  | lastMember {units : List StringUnit} {text value after rest : List Char} (hname : Named units text value)
      (hvalue : WellFormed .value value after) (hend : Blanks after ('}' :: rest)) : WellFormed .members text rest
  /-- there are more members -/
  | member {units : List StringUnit} {text value after next rest : List Char} (hname : Named units text value)
      (hvalue : WellFormed .value value after) (hcomma : Blanks after (',' :: next))
      (hrest : WellFormed .members next rest) : WellFormed .members text rest

variable {part : Part}

theorem WellFormed.length_lt (h : WellFormed part text rest) : rest.length < text.length := by
  induction h with
  | null | yes | no =>
    simp only [List.length_cons]
    omega
  | string hunits => exact Nat.lt_succ_of_lt hunits.length_lt
  | number hnumber =>
    cases hnumber with
    | unsigned h => exact h.length_lt
    | negative h => exact Nat.lt_succ_of_lt h.length_lt
  | emptyArray hend | emptyObject hend => exact Nat.lt_succ_of_lt hend.length_le
  | array _ ih | object _ ih => exact Nat.lt_succ_of_lt ih
  | lastElement hblanks _ hend ih =>
    have hend := hend.length_le
    exact Nat.lt_of_lt_of_le (Nat.lt_trans hend ih) hblanks.length_le
  | element hblanks _ hcomma _ ihvalue ihrest =>
    have hcomma := hcomma.length_le
    exact Nat.lt_of_lt_of_le (Nat.lt_trans (Nat.lt_trans ihrest hcomma) ihvalue) hblanks.length_le
  | lastMember hname _ hend ih =>
    have hend := hend.length_le
    exact Nat.lt_trans (Nat.lt_trans hend ih) hname.length_lt
  | member hname _ hcomma _ ihvalue ihrest =>
    have hcomma := hcomma.length_le
    exact Nat.lt_trans (Nat.lt_trans (Nat.lt_trans ihrest hcomma) ihvalue) hname.length_lt

/-- A value starts with neither a blank nor the end of an array. -/
theorem WellFormed.head (h : WellFormed .value text rest) :
    ∃ c tail, text = c :: tail ∧ isBlank c = false ∧ c ≠ ']' := by
  cases h with
  | null | yes | no | string | emptyArray | array | emptyObject | object =>
    exact ⟨_, _, rfl, by decide, by decide⟩
  | number hnumber =>
    cases hnumber with
    | negative => exact ⟨_, _, rfl, by decide, by decide⟩
    | unsigned h =>
      obtain ⟨c, tail, rfl, hdigit⟩ := h.head
      refine ⟨c, tail, rfl, isBlank_of_isDigit hdigit, ?_⟩
      rintro rfl
      cases hdigit

theorem WellFormed.skipBlanks (h : WellFormed .value text rest) : skipBlanks text = text := by
  obtain ⟨c, tail, rfl, hblank, -⟩ := h.head
  exact skipBlanks_cons_of_not hblank tail

/-- Blanks in front of elements or members do not count. -/
theorem WellFormed.of_blanks (h : WellFormed part middle rest) (hpart : part ≠ .value) (htext : Blanks text middle) :
    WellFormed part text rest := by
  cases h with
  | lastElement hblanks hvalue hend => exact .lastElement (htext.trans hblanks) hvalue hend
  | element hblanks hvalue hcomma hrest => exact .element (htext.trans hblanks) hvalue hcomma hrest
  | lastMember hname hvalue hend => exact .lastMember (hname.of_blanks htext) hvalue hend
  | member hname hvalue hcomma hrest => exact .member (hname.of_blanks htext) hvalue hcomma hrest
  | _ => exact absurd rfl hpart

/-! ## Skipping values -/

section Steps

variable {fuel : Nat}
  (hvalues : ∀ text rest, skipValue fuel text = some rest → WellFormed .value (skipBlanks text) rest)
  (helements : ∀ text rest, skipElements fuel text = some rest → WellFormed .elements text rest)
  (hmembers : ∀ text rest, skipMembers fuel text = some rest → WellFormed .members text rest)

include helements hmembers in
/-- A value that is skipped is well formed, if what is inside of it is when it is skipped. -/
theorem value_of_skip (h : skipValue (fuel + 1) text = some rest) : WellFormed .value (skipBlanks text) rest := by
  rw [skipValue] at h
  split at h
  case h_1 htoken | h_2 htoken | h_3 htoken =>
    obtain rfl := Option.some.inj h
    rw [htoken]
    constructor
  case h_4 htoken =>
    obtain ⟨⟨units, left⟩, hunits, rfl⟩ := Option.map_eq_some_iff.mp h
    exact htoken ▸ .string (readUnits_eq_some_iff.mp hunits)
  case h_5 htoken => exact htoken ▸ .number (.negative (unsigned_of_skipNumber h))
  case h_6 inside htoken =>
    rw [htoken]
    have hblanks := blanks_skipBlanks inside
    split at h
    · rename_i hend
      obtain rfl := Option.some.inj h
      exact .emptyArray (hend ▸ hblanks)
    · exact .array ((helements _ _ h).of_blanks nofun hblanks)
  case h_7 inside htoken =>
    rw [htoken]
    have hblanks := blanks_skipBlanks inside
    split at h
    · rename_i hend
      obtain rfl := Option.some.inj h
      exact .emptyObject (hend ▸ hblanks)
    · exact .object ((hmembers _ _ h).of_blanks nofun hblanks)
  case h_8 => exact .number (.unsigned (unsigned_of_skipNumber h))

include hvalues helements in
/-- Elements that are skipped are well formed, if the first and those after it are when they are skipped. -/
theorem elements_of_skip (h : skipElements (fuel + 1) text = some rest) : WellFormed .elements text rest := by
  rw [skipElements] at h
  obtain ⟨after, hvalue, h⟩ := Option.bind_eq_some_iff.mp h
  have hvalue := hvalues _ _ hvalue
  have hblanks := blanks_skipBlanks text
  have hend := blanks_skipBlanks after
  split at h
  · rename_i htoken
    obtain rfl := Option.some.inj h
    exact .lastElement hblanks hvalue (htoken ▸ hend)
  · rename_i htoken
    exact .element hblanks hvalue (htoken ▸ hend) (helements _ _ h)
  · cases h

include hvalues hmembers in
/-- Members that are skipped are well formed, if the value of the first and those after it are when they are. -/
theorem members_of_skip (h : skipMembers (fuel + 1) text = some rest) : WellFormed .members text rest := by
  rw [skipMembers] at h
  have hquote := blanks_skipBlanks text
  split at h
  case h_2 => cases h
  rename_i name hname
  rw [hname] at hquote
  obtain ⟨⟨units, colon⟩, hunits, h⟩ := Option.bind_eq_some_iff.mp h
  have hunits := readUnits_eq_some_iff.mp hunits
  have hcolon := blanks_skipBlanks colon
  dsimp only at h
  split at h
  case h_2 => cases h
  rename_i before hbefore
  rw [hbefore] at hcolon
  obtain ⟨after, hvalue, h⟩ := Option.bind_eq_some_iff.mp h
  have hvalue := hvalues _ _ hvalue
  have hnamed := Named.colon hquote hunits hcolon (blanks_skipBlanks before)
  have hend := blanks_skipBlanks after
  split at h
  · rename_i htoken
    obtain rfl := Option.some.inj h
    exact .lastMember hnamed hvalue (htoken ▸ hend)
  · rename_i htoken
    exact .member hnamed hvalue (htoken ▸ hend) (hmembers _ _ h)
  · cases h

end Steps

/-- **What is skipped is well formed.** -/
theorem wellFormed_of_skip (fuel : Nat) :
    (∀ text rest, skipValue fuel text = some rest → WellFormed .value (skipBlanks text) rest) ∧
    (∀ text rest, skipElements fuel text = some rest → WellFormed .elements text rest) ∧
    (∀ text rest, skipMembers fuel text = some rest → WellFormed .members text rest) := by
  induction fuel with
  | zero => exact ⟨nofun, nofun, nofun⟩
  | succ fuel ih =>
    obtain ⟨hvalues, helements, hmembers⟩ := ih
    exact ⟨fun _ _ => value_of_skip helements hmembers, fun _ _ => elements_of_skip hvalues helements,
      fun _ _ => members_of_skip hvalues hmembers⟩

/-- Skips a part. -/
def skipPart : Part → Nat → List Char → Option (List Char)
  | .value => skipValue
  | .elements => skipElements
  | .members => skipMembers

theorem skipBlanks_skipBlanks (text : List Char) : skipBlanks (skipBlanks text) = skipBlanks text := by
  induction text with
  | nil => rfl
  | cons c text ih =>
    rcases hblank : isBlank c with _ | _
    · rw [skipBlanks_cons_of_not hblank, skipBlanks_cons_of_not hblank]
    · have hskip : skipBlanks (c :: text) = skipBlanks text := List.dropWhile_cons_of_pos hblank
      rw [hskip, ih]

/-- Blanks in front do not count. -/
theorem skipPart_skipBlanks (part : Part) (fuel : Nat) (text : List Char) :
    skipPart part fuel (skipBlanks text) = skipPart part fuel text := by
  have hvalue : ∀ fuel, skipValue fuel (skipBlanks text) = skipValue fuel text := by
    intro fuel
    rcases fuel with _ | fuel
    · rfl
    · rw [skipValue, skipValue, skipBlanks_skipBlanks]
  rcases part with _ | _ | _
  · exact hvalue fuel
  · rcases fuel with _ | fuel
    · rfl
    · rw [skipPart, skipElements, skipElements, hvalue]
  · rcases fuel with _ | fuel
    · rfl
    · rw [skipPart, skipMembers, skipMembers, skipBlanks_skipBlanks]

theorem skipValue_of_blanks {value after : List Char} (hblanks : Blanks text value)
    (hvalue : WellFormed .value value after) (fuel : Nat) : skipValue fuel text = skipValue fuel value := by
  rw [← hblanks.skip hvalue.skipBlanks]
  exact (skipPart_skipBlanks .value fuel text).symm

theorem WellFormed.elements_head (h : WellFormed .elements text rest) (left : List Char) :
    Json.skipBlanks text ≠ ']' :: left := by
  cases h with
  | lastElement hblanks hvalue | element hblanks hvalue =>
    obtain ⟨c, tail, hhead, -, hc⟩ := hvalue.head
    rw [hblanks.skip hvalue.skipBlanks, hhead]
    exact fun h => hc (List.cons.inj h).1

theorem WellFormed.members_head (h : WellFormed .members text rest) (left : List Char) :
    Json.skipBlanks text ≠ '}' :: left := by
  cases h with
  | lastMember hname | member hname =>
    obtain ⟨hquote, -, -, -⟩ := hname
    rw [(skipBlanks_eq_cons_iff rfl).mpr hquote]
    exact nofun

theorem skipValue_of_isDigit (hdigit : c.isDigit = true) (fuel : Nat) :
    skipValue (fuel + 1) (c :: text) = skipNumber (c :: text) := by
  rw [skipValue, skipBlanks_cons_of_not (isBlank_of_isDigit hdigit)]
  split
  case h_8 => rfl
  all_goals
    rename_i htext
    cases htext
    cases hdigit

theorem skipValue_array (h : ∀ left, skipBlanks text ≠ ']' :: left) (fuel : Nat) :
    skipValue (fuel + 1) ('[' :: text) = skipElements fuel text := by
  rw [skipValue, skipBlanks_cons_of_not rfl]
  simp only
  exact skipPart_skipBlanks .elements fuel text

theorem skipValue_object (h : ∀ left, skipBlanks text ≠ '}' :: left) (fuel : Nat) :
    skipValue (fuel + 1) ('{' :: text) = skipMembers fuel text := by
  rw [skipValue, skipBlanks_cons_of_not rfl]
  simp only
  exact skipPart_skipBlanks .members fuel text

theorem skipValue_emptyArray (hend : Blanks text (']' :: rest)) (fuel : Nat) :
    skipValue (fuel + 1) ('[' :: text) = some rest := by
  rw [skipValue, skipBlanks_cons_of_not rfl]
  simp only [(skipBlanks_eq_cons_iff rfl).mpr hend]

theorem skipValue_emptyObject (hend : Blanks text ('}' :: rest)) (fuel : Nat) :
    skipValue (fuel + 1) ('{' :: text) = some rest := by
  rw [skipValue, skipBlanks_cons_of_not rfl]
  simp only [(skipBlanks_eq_cons_iff rfl).mpr hend]

section Parts

variable {fuel : Nat} {value after : List Char}

/-- After its first element an array ends with a bracket, and with a comma it goes on. -/
theorem skipElements_of_value (hvalue : skipValue fuel text = some after) :
    (Blanks after (']' :: rest) → skipElements (fuel + 1) text = some rest) ∧
      (Blanks after (',' :: rest) → skipElements (fuel + 1) text = skipElements fuel rest) := by
  rw [skipElements, hvalue]
  constructor
  · intro hend
    simp only [Option.bind_eq_bind, Option.bind_some, (skipBlanks_eq_cons_iff rfl).mpr hend]
  · intro hcomma
    simp only [Option.bind_eq_bind, Option.bind_some, (skipBlanks_eq_cons_iff rfl).mpr hcomma]

/-- After its first member an object ends with a brace, and with a comma it goes on. -/
theorem skipMembers_of_named (hname : Named units text value)
    (hvalue : ∀ before, Blanks before value → skipValue fuel before = some after) :
    (Blanks after ('}' :: rest) → skipMembers (fuel + 1) text = some rest) ∧
      (Blanks after (',' :: rest) → skipMembers (fuel + 1) text = skipMembers fuel rest) := by
  obtain ⟨hquote, hunits, hcolon, hblanks⟩ := hname
  rw [skipMembers, (skipBlanks_eq_cons_iff rfl).mpr hquote]
  simp only [readUnits_eq_some_iff.mpr hunits, (skipBlanks_eq_cons_iff rfl).mpr hcolon, Option.bind_eq_bind,
    Option.bind_some, hvalue _ hblanks]
  constructor
  · intro hend
    simp only [(skipBlanks_eq_cons_iff rfl).mpr hend]
  · intro hcomma
    simp only [(skipBlanks_eq_cons_iff rfl).mpr hcomma]

end Parts

/-- **What is well formed is skipped**, in front of a text that does not go on with a number. A text of some length
nests no deeper than that. -/
theorem WellFormed.skip {fuel : Nat} (h : WellFormed part text rest) (hrest : part = .value → EndsWord rest)
    (hfuel : text.length ≤ fuel + rest.length) : skipPart part fuel text = some rest := by
  have hlength := h.length_lt
  induction fuel generalizing part text rest with
  | zero => omega
  | succ fuel ih =>
    -- a value inside a part stands in front of blanks and a token
    have hinner : ∀ {value after next : List Char} {c : Char}, WellFormed .value value after →
        Blanks after (c :: next) → c ∈ [',', ']', '}'] → value.length ≤ fuel + 1 + next.length →
        ∀ before, Blanks before value → skipValue fuel before = some after := by
      intro value after next c hvalue hend hc hfuel before hblanks
      have hafter := hend.length_le
      rw [List.length_cons] at hafter
      rw [skipValue_of_blanks hblanks hvalue]
      exact ih hvalue (fun _ => hend.endsWord hc) (by omega) hvalue.length_lt
    cases h with
    | null | yes | no => rfl
    | string hunits =>
      rw [skipPart, skipValue, skipBlanks_cons_of_not rfl]
      simp only [readUnits_eq_some_iff.mpr hunits, Option.map_some]
    | number hnumber =>
      cases hnumber with
      | negative h => exact h.skip (hrest rfl)
      | unsigned h =>
        obtain ⟨c, tail, rfl, hdigit⟩ := h.head
        exact (skipValue_of_isDigit hdigit fuel).trans (h.skip (hrest rfl))
    | emptyArray hend => exact skipValue_emptyArray hend fuel
    | emptyObject hend => exact skipValue_emptyObject hend fuel
    | array helements =>
      rw [List.length_cons] at hfuel
      rw [skipPart, skipValue_array helements.elements_head]
      exact ih helements nofun (by omega) helements.length_lt
    | object hmembers =>
      rw [List.length_cons] at hfuel
      rw [skipPart, skipValue_object hmembers.members_head]
      exact ih hmembers nofun (by omega) hmembers.length_lt
    | lastElement hblanks hvalue hend =>
      have hshort := hblanks.length_le
      have hskip := hinner hvalue hend (by decide) (by omega) _ hblanks
      exact (skipElements_of_value hskip).1 hend
    | element hblanks hvalue hcomma hmore =>
      have hnext := hmore.length_lt
      have hshort := hblanks.length_le
      have hskip := hinner hvalue hcomma (by decide) (by omega) _ hblanks
      have hshorter := hvalue.length_lt
      have hafter := hcomma.length_le
      rw [List.length_cons] at hafter
      rw [skipPart, (skipElements_of_value hskip).2 hcomma]
      exact ih hmore nofun (by omega) hnext
    | lastMember hname hvalue hend =>
      have hshort := hname.length_lt
      exact (skipMembers_of_named hname (hinner hvalue hend (by decide) (by omega))).1 hend
    | member hname hvalue hcomma hmore =>
      have hnext := hmore.length_lt
      have hshort := hname.length_lt
      have hshorter := hvalue.length_lt
      have hafter := hcomma.length_le
      rw [List.length_cons] at hafter
      rw [skipPart, (skipMembers_of_named hname (hinner hvalue hcomma (by decide) (by omega))).2 hcomma]
      exact ih hmore nofun (by omega) hnext

/-- **A value is skipped iff it is well formed**, in front of a text that does not go on with a number. -/
theorem skip_eq_some_iff (htext : skipBlanks text = text) (hrest : EndsWord rest) :
    skip text = some rest ↔ WellFormed .value text rest := by
  constructor
  · intro h
    exact htext ▸ (wellFormed_of_skip _).1 text rest h
  · intro h
    exact h.skip (fun _ => hrest) (by omega)

theorem length_of_skip (h : skip text = some rest) : rest.length ≤ text.length :=
  Nat.le_of_lt (Nat.lt_of_lt_of_le ((wellFormed_of_skip _).1 _ _ h).length_lt (blanks_skipBlanks text).length_le)

end CodeMarkup.Json
