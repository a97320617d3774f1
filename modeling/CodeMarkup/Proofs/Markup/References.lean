import CodeMarkup.Proofs.Json.Written
import CodeMarkup.Proofs.Markup.Numbered

/-!
# Texts behind references

Characters are written as references in two vocabularies, and in either of them a written text can be told from any
other by its shape: no character stands bare that has a reference, and an ampersand stands only where a reference
begins. A text of that shape begins with a written character and goes on in that shape, so it is some text written
(`exists_flatMap_of_shape`). Since a written character is read as that character whatever follows it, writing and
reading are inverse to each other (`escapeMarkup_eq_iff`, `escapePlain_eq_iff`).

The five entities are read by `unescaped`, and their shape is `Inert`. Decimal references are read by `unnumbered`, and
their shape is `Numbered`. Such a reference is as long as its number, and it ends where it does because a semicolon is
no digit (`readNumber?_eq_some_iff`).
-/

namespace CodeMarkup.Text

/-! ## Shapes of written texts -/

/-- **A text of a shape is written**, if each text of the shape begins with a written character and goes on in the
shape. -/
theorem exists_flatMap_of_shape {shape : List Char → Prop} {write : Char → List Char} (hwrite : ∀ c, write c ≠ [])
    (hshape : ∀ c text, shape (c :: text) → ∃ d rest, c :: text = write d ++ rest ∧ shape rest) {text : List Char}
    (h : shape text) : ∃ chars : List Char, text = chars.flatMap write := by
  induction hlength : text.length using Nat.strongRecOn generalizing text with
  | _ length ih =>
    rcases text with _ | ⟨c, text⟩
    · exact ⟨[], rfl⟩
    · obtain ⟨d, rest, htext, hrest⟩ := hshape c text h
      have hshorter : rest.length < length := by
        have hpos := List.length_pos_iff.mpr (hwrite d)
        rw [← hlength, htext, List.length_append]
        omega
      obtain ⟨chars, rfl⟩ := ih _ hshorter hrest rfl
      exact ⟨d :: chars, htext⟩

/-! ## Named entities -/

theorem markupChar_ne_nil (c : Char) : markupChar c ≠ [] := by
  unfold markupChar entity?
  split <;> exact List.cons_ne_nil _ _

/-- Every entity is an escaped character. -/
theorem exists_markupChar_eq {entity : List Char} (h : entity ∈ entities) : ∃ c, markupChar c = entity := by
  simp only [entities, List.mem_cons, List.not_mem_nil, or_false] at h
  rcases h with rfl | rfl | rfl | rfl | rfl
  · exact ⟨'&', rfl⟩
  · exact ⟨'<', rfl⟩
  · exact ⟨'>', rfl⟩
  · exact ⟨'"', rfl⟩
  · exact ⟨'\'', rfl⟩

theorem Inert.of_append {first second : List Char} (h : Inert (first ++ second)) : Inert second := by
  induction first with
  | nil => exact h
  | cons c first ih => exact ih h.2.2

/-- An inert text begins with an escaped character and goes on inert. -/
theorem Inert.exists_markupChar (c : Char) (text : List Char) (h : Inert (c :: text)) :
    ∃ d rest, c :: text = markupChar d ++ rest ∧ Inert rest := by
  by_cases hamp : c = '&'
  · obtain ⟨entity, hentity, hbegins⟩ := h.2.1 hamp
    obtain ⟨d, rfl⟩ := exists_markupChar_eq hentity
    obtain ⟨rest, hrest⟩ := List.isPrefixOf_iff_prefix.mp hbegins
    exact ⟨d, rest, hrest.symm, Inert.of_append (hrest ▸ h)⟩
  · have hplain : Plain [c] := by
      intro d hd hescaped
      obtain rfl := List.mem_singleton.mp hd
      rcases List.mem_append.mp (show d ∈ ['<', '>', '"', '\''] ++ ['&'] from hescaped) with hbare | hmem
      · exact h.1 hbare
      · exact hamp (List.mem_singleton.mp hmem)
    have hwritten : markupChar c = [c] := by
      simpa using escapedMarkup_of_plain hplain
    exact ⟨c, text, by rw [hwritten, List.singleton_append], h.2.2⟩

/-- **Escaping and reading entities are inverse to each other.** A text is escaped to what is inert and reads as that
text, and to nothing else; so no two texts are escaped alike. -/
theorem escapeMarkup_eq_iff :
    (∀ text shown : String,
      escapeMarkup text = shown ↔ Inert shown.toList ∧ unescaped shown.toList = text.toList) ∧
    Function.Injective escapeMarkup := by
  have hread : ∀ text, unescaped (escapeMarkup text).toList = text.toList := by
    intro text
    rw [escapeMarkup, String.toList_ofList, unescaped_escapedMarkup]
  constructor
  · intro text shown
    constructor
    · rintro rfl
      rw [escapeMarkup, String.toList_ofList]
      exact ⟨inert_escapedMarkup _, unescaped_escapedMarkup _⟩
    · rintro ⟨hinert, hreads⟩
      obtain ⟨chars, hchars⟩ := exists_flatMap_of_shape markupChar_ne_nil Inert.exists_markupChar hinert
      have hwritten : shown.toList = escapedMarkup chars := hchars
      rw [hwritten, unescaped_escapedMarkup] at hreads
      rw [escapeMarkup, ← hreads, ← hwritten, String.ofList_toList]
  · intro text other hsame
    have hlists : text.toList = other.toList := by
      rw [← hread text, ← hread other, hsame]
    exact String.toList_inj.mp hlists

/-- Entities in a text are written out, and read once. -/
example : escapeMarkup "&lt;'" = "&amp;lt;&#39;" ∧ unescaped "&amp;lt;&#39;".toList = "&lt;'".toList := by
  decide

/-! ## Decimal references -/

/-- Whether a text has no angle bracket and no character from U+00A0 to U+9999, and an ampersand only where the decimal
reference to such a character, or to an ampersand, begins. -/
def Numbered : List Char → Prop
  | [] => True
  | c :: rest => (c ∉ ['<', '>'] ∧ ¬ (0xA0 ≤ c.toNat ∧ c.toNat ≤ 0x9999)) ∧
      (c = '&' → ∃ d : Char, (d ∈ ['<', '>', '&'] ∨ 0xA0 ≤ d.toNat ∧ d.toNat ≤ 0x9999) ∧
        "&#".toList ++ decimal d.toNat ++ [';'] <+: c :: rest) ∧
      Numbered rest

/-- The character whose decimal reference a text begins with, and the text after the reference. -/
def readNumber? : List Char → Option (Char × List Char)
  | '&' :: '#' :: text =>
    let digits := text.takeWhile Char.isDigit
    let c := Char.ofNat (decimalValue digits)
    match text.dropWhile Char.isDigit with
    | ';' :: rest => if needsNumber c ∧ decimal c.toNat = digits then some (c, rest) else none
    | _ => none
  | _ => none

theorem needsNumber_iff {c : Char} :
    needsNumber c = true ↔ c ∈ ['<', '>', '&'] ∨ 0xA0 ≤ c.toNat ∧ c.toNat ≤ 0x9999 := by
  simp [needsNumber, or_assoc]

theorem needsNumber_of_isDigit {c : Char} (h : c.isDigit = true) : needsNumber c = false := by
  refine Bool.eq_false_iff.mpr fun hneeds => ?_
  rcases needsNumber_iff.mp hneeds with hsign | hrange
  · simp only [List.mem_cons, List.not_mem_nil, or_false] at hsign
    rcases hsign with rfl | rfl | rfl <;> cases h
  · have hlast : c.toNat ≤ '9'.toNat := (Char.isDigit_iff_toNat.mp h).2
    exact absurd (Nat.le_trans hrange.1 hlast) (by decide)

/-- **A text begins with one decimal reference at most**, and that one is read. -/
theorem readNumber?_eq_some_iff {text rest : List Char} {c : Char} :
    readNumber? text = some (c, rest) ↔ needsNumber c = true ∧ text = numberReference c ++ rest := by
  constructor
  · intro h
    unfold readNumber? at h
    split at h
    · rename_i text
      dsimp only at h
      split at h
      · rename_i hdrop
        split at h
        · rename_i hread
          obtain ⟨rfl, rfl⟩ := Prod.mk.inj (Option.some.inj h)
          refine ⟨hread.1, ?_⟩
          have htext := List.takeWhile_append_dropWhile (p := Char.isDigit) (l := text)
          rw [hdrop] at htext
          rw [numberReference, hread.2]
          simpa using htext.symm
        · cases h
      · cases h
    · cases h
  · rintro ⟨hneeds, rfl⟩
    have hdigits : ∀ d ∈ decimal c.toNat, d.isDigit = true := fun _ => Json.isDigit_of_mem_decimal
    have htake : (decimal c.toNat ++ ';' :: rest).takeWhile Char.isDigit = decimal c.toNat := by
      rw [List.takeWhile_append_of_pos hdigits, List.takeWhile_cons_of_neg (by decide), List.append_nil]
    have hdrop : (decimal c.toNat ++ ';' :: rest).dropWhile Char.isDigit = ';' :: rest := by
      rw [List.dropWhile_append_of_pos hdigits, List.dropWhile_cons_of_neg (by decide)]
    have hreference : numberReference c ++ rest = '&' :: '#' :: (decimal c.toNat ++ ';' :: rest) := by
      simp [numberReference]
    rw [hreference, readNumber?]
    simp only [htake, hdrop, Json.decimalValue_decimal, Char.ofNat_toNat, hneeds, and_self, if_true]

/-- What follows a decimal reference is shorter. -/
theorem length_lt_of_readNumber? {text rest : List Char} {c : Char} (h : readNumber? text = some (c, rest)) :
    rest.length < text.length := by
  obtain ⟨-, rfl⟩ := readNumber?_eq_some_iff.mp h
  simp [numberReference]
  omega

/-- A text with its decimal references read as the characters that they stand for. -/
def unnumbered : List Char → List Char
  | [] => []
  | c :: text =>
    match _reads : readNumber? (c :: text) with
    | some (d, rest) => d :: unnumbered rest
    | none => c :: unnumbered text
termination_by text => text.length
decreasing_by
  · exact length_lt_of_readNumber? _reads
  · exact Nat.lt_succ_self _

theorem unnumbered_of_reads {text rest : List Char} {c : Char} (h : readNumber? text = some (c, rest)) :
    unnumbered text = c :: unnumbered rest := by
  rcases text with _ | ⟨d, text⟩
  · cases h
  · rw [unnumbered]
    split
    · rename_i hreads
      obtain ⟨rfl, rfl⟩ := Prod.mk.inj (Option.some.inj (hreads.symm.trans h))
      rfl
    · rename_i hnone
      cases hnone.symm.trans h

theorem unnumbered_cons {c : Char} {text : List Char} (h : readNumber? (c :: text) = none) :
    unnumbered (c :: text) = c :: unnumbered text := by
  rw [unnumbered]
  split
  · rename_i hreads
    cases h.symm.trans hreads
  · rfl

/-- **A written character is read as that character**, in front of any text. -/
theorem unnumbered_plainChar (c : Char) (rest : List Char) :
    unnumbered (plainChar c ++ rest) = c :: unnumbered rest := by
  unfold plainChar
  split
  · rename_i hneeds
    exact unnumbered_of_reads (readNumber?_eq_some_iff.mpr ⟨hneeds, rfl⟩)
  · rename_i hbare
    refine unnumbered_cons (Option.eq_none_iff_forall_ne_some.mpr fun read hread => hbare ?_)
    obtain ⟨hneeds, htext⟩ := readNumber?_eq_some_iff.mp hread
    -- what begins with a reference begins with an ampersand, which is not left bare
    obtain ⟨rfl, -⟩ := List.cons.inj htext
    rfl

theorem unnumbered_flatMap (chars : List Char) : unnumbered (chars.flatMap plainChar) = chars := by
  induction chars with
  | nil => rw [List.flatMap_nil, unnumbered]
  | cons c chars ih => rw [List.flatMap_cons, unnumbered_plainChar, ih]

theorem plainChar_ne_nil (c : Char) : plainChar c ≠ [] := by
  unfold plainChar numberReference
  split <;> exact List.cons_ne_nil _ _

/-- What has no character that is written by its number can stand in front. -/
theorem numbered_append {front rest : List Char} (hfront : ∀ c ∈ front, needsNumber c = false)
    (hrest : Numbered rest) : Numbered (front ++ rest) := by
  induction front with
  | nil => exact hrest
  | cons c front ih =>
    have hbare : ¬ (c ∈ ['<', '>', '&'] ∨ 0xA0 ≤ c.toNat ∧ c.toNat ≤ 0x9999) := by
      rw [← needsNumber_iff, hfront c List.mem_cons_self]
      exact Bool.false_ne_true
    rw [not_or] at hbare
    refine ⟨⟨fun hbracket => hbare.1 (List.mem_append_left ['&'] hbracket), hbare.2⟩, ?_,
      ih fun d hd => hfront d (List.mem_cons_of_mem _ hd)⟩
    rintro rfl
    exact absurd (by decide) hbare.1

/-- A written character can stand in front. -/
theorem numbered_plainChar (c : Char) {rest : List Char} (hrest : Numbered rest) :
    Numbered (plainChar c ++ rest) := by
  unfold plainChar
  split
  · rename_i hneeds
    -- behind the ampersand stand a number sign, digits and a semicolon
    have hbare : ∀ d ∈ '#' :: (decimal c.toNat ++ [';']), needsNumber d = false := by
      intro d hd
      rw [List.mem_cons, List.mem_append, List.mem_singleton] at hd
      rcases hd with rfl | hdigit | rfl
      · rfl
      · exact needsNumber_of_isDigit (Json.isDigit_of_mem_decimal hdigit)
      · rfl
    have hreference : numberReference c ++ rest = '&' :: ('#' :: (decimal c.toNat ++ [';']) ++ rest) := by
      simp [numberReference]
    rw [hreference]
    refine ⟨by decide, fun _ => ⟨c, needsNumber_iff.mp hneeds, rest, ?_⟩, numbered_append hbare hrest⟩
    simp
  · rename_i hbare
    refine numbered_append (fun d hd => ?_) hrest
    obtain rfl := List.mem_singleton.mp hd
    exact Bool.eq_false_iff.mpr hbare

theorem numbered_flatMap (chars : List Char) : Numbered (chars.flatMap plainChar) := by
  induction chars with
  | nil => trivial
  | cons c chars ih => exact numbered_plainChar c ih

theorem Numbered.of_append {first second : List Char} (h : Numbered (first ++ second)) : Numbered second := by
  induction first with
  | nil => exact h
  | cons c first ih => exact ih h.2.2

/-- A text of that shape begins with a written character and goes on in that shape. -/
theorem Numbered.exists_plainChar (c : Char) (text : List Char) (h : Numbered (c :: text)) :
    ∃ d rest, c :: text = plainChar d ++ rest ∧ Numbered rest := by
  by_cases hamp : c = '&'
  · obtain ⟨d, hneeds, rest, hrest⟩ := h.2.1 hamp
    have hwritten : plainChar d = "&#".toList ++ decimal d.toNat ++ [';'] := by
      rw [plainChar, if_pos (needsNumber_iff.mpr hneeds)]
      rfl
    rw [← hwritten] at hrest
    exact ⟨d, rest, hrest.symm, Numbered.of_append (hrest ▸ h)⟩
  · have hbare : needsNumber c ≠ true := by
      rw [ne_eq, needsNumber_iff]
      rintro (hsign | hrange)
      · rcases List.mem_append.mp (show c ∈ ['<', '>'] ++ ['&'] from hsign) with hbracket | hmem
        · exact h.1.1 hbracket
        · exact hamp (List.mem_singleton.mp hmem)
      · exact h.1.2 hrange
    have hwritten : plainChar c = [c] := if_neg hbare
    exact ⟨c, text, by rw [hwritten, List.singleton_append], h.2.2⟩

/-- **Writing and reading characters by their numbers are inverse to each other.** Unhighlighted code is shown as a text
without angle brackets and without characters from U+00A0 to U+9999, in which every ampersand begins a reference to such
a character or to an ampersand, and which reads as the code; no other text is such. -/
theorem escapePlain_eq_iff (code shown : String) :
    escapePlain code = shown ↔ Numbered shown.toList ∧ unnumbered shown.toList = code.toList := by
  constructor
  · rintro rfl
    rw [escapePlain, String.toList_ofList]
    exact ⟨numbered_flatMap _, unnumbered_flatMap _⟩
  · rintro ⟨hnumbered, hreads⟩
    obtain ⟨chars, hchars⟩ := exists_flatMap_of_shape plainChar_ne_nil Numbered.exists_plainChar hnumbered
    rw [hchars, unnumbered_flatMap] at hreads
    rw [escapePlain, ← hreads, ← hchars, String.ofList_toList]

/-- A text that looks like a reference is written out. -/
example : escapePlain "<&#38;é" = "&#60;&#38;#38;&#233;" := by decide

end CodeMarkup.Text
