import Mathlib.Data.List.TakeWhile
import CodeMarkup.Proofs.Text.Boundary
import CodeMarkup.Theme.Color

/-!
# Written colours

A style sheet writes a colour as a hash sign and six digits in lower case, and reading gives the colour back
(`read_css`). Reading takes more than that. Hash signs in front do not count, digits may be in either case, and each of
the three **pairs** may have a plus sign for its first digit, which then counts as zero. That is all: what is read as a
colour is three pairs behind hash signs, and the colour is the one that is written with the plain digits of these pairs
(`read_eq_color_iff`). Only the plus signs let in texts that no style sheet would take for a colour.

Reading cuts by bytes, and a cut may fall inside a character. This is an ending of its own, and it is met exactly when
the six bytes are **straddled**: a character lies across the end of the first pair, or the first pair is one and a
character lies across the end of the second (`read_eq_split_iff`).
-/

namespace CodeMarkup.Color

/-! ## Digits -/

/-- A hexadecimal digit, in either case. -/
def IsHexDigit (c : Char) : Prop :=
  c ∈ "0123456789abcdefABCDEF".toList

instance (c : Char) : Decidable (IsHexDigit c) :=
  inferInstanceAs (Decidable (c ∈ "0123456789abcdefABCDEF".toList))

/-- Two characters that write a channel: two digits, or a plus sign and a digit. -/
def IsPair (first second : Char) : Prop :=
  (first = '+' ∨ IsHexDigit first) ∧ IsHexDigit second

instance (first second : Char) : Decidable (IsPair first second) :=
  inferInstanceAs (Decidable (_ ∧ _))

theorem IsHexDigit.ne_plus {c : Char} (h : IsHexDigit c) : c ≠ '+' := by
  rintro rfl
  revert h
  decide

/-- The digit that a character of a pair stands for, as a style sheet writes it. -/
def plainDigit (c : Char) : Char :=
  if c = '+' then '0' else c.toLower

/-- What can be seen of each of the digits holds of all. -/
theorem IsHexDigit.of_all (property : Char → Prop) [DecidablePred property]
    (hall : ("0123456789abcdefABCDEF".toList.all fun c => property c) = true) {c : Char} (h : IsHexDigit c) : property c :=
  of_decide_eq_true (List.all_eq_true.mp hall c h)

/-- The value of a digit is below 16, and written again it is the digit in lower case. -/
theorem hexValue?_of_isHexDigit {c : Char} (h : IsHexDigit c) :
    ∃ value, value < 16 ∧ Text.hexValue? c = some value ∧ digit value = c.toLower :=
  h.of_all (fun c => ∃ value, value < 16 ∧ Text.hexValue? c = some value ∧ digit value = c.toLower) (by decide)

/-- Nothing else has a value. -/
theorem isHexDigit_of_hexValue? {c : Char} {value : Nat} (h : Text.hexValue? c = some value) : IsHexDigit c := by
  have hall : ∀ code, code < 128 → (Text.hexValue? (Char.ofNat code)).isSome = true →
      IsHexDigit (Char.ofNat code) := by decide
  have hcode : c.toNat < 128 := by
    unfold Text.hexValue? at h
    split at h
    · rename_i hdigit
      simp only [Char.isDigit, Bool.and_eq_true, decide_eq_true_eq] at hdigit
      exact Nat.lt_of_le_of_lt hdigit.2 (by decide)
    · split at h
      · rename_i hletter
        exact Nat.lt_of_le_of_lt hletter.2 (by decide)
      · split at h
        · rename_i hletter
          exact Nat.lt_of_le_of_lt hletter.2 (by decide)
        · cases h
  have hchar := hall c.toNat hcode
  rw [Char.ofNat_toNat] at hchar
  exact hchar (by rw [h]; rfl)

theorem hexValue?_digit {value : Nat} (h : value < 16) : Text.hexValue? (digit value) = some value := by
  revert h value
  decide

/-! ## Pairs -/

/-- The value of the first character of a pair. -/
def leadValue? (c : Char) : Option Nat :=
  if c = '+' then some 0 else Text.hexValue? c

theorem leadValue?_of_lead {c : Char} (h : c = '+' ∨ IsHexDigit c) :
    ∃ value, value < 16 ∧ leadValue? c = some value ∧ digit value = plainDigit c := by
  unfold leadValue? plainDigit
  by_cases hplus : c = '+'
  · rw [if_pos hplus, if_pos hplus]
    exact ⟨0, by decide, rfl, rfl⟩
  · rw [if_neg hplus, if_neg hplus]
    exact hexValue?_of_isHexDigit (h.resolve_left hplus)

theorem lead_of_leadValue? {c : Char} {value : Nat} (h : leadValue? c = some value) :
    c = '+' ∨ IsHexDigit c := by
  unfold leadValue? at h
  split at h
  · rename_i hplus
    exact Or.inl hplus
  · exact Or.inr (isHexDigit_of_hexValue? h)

theorem readChannel_pair (first second : Char) :
    readChannel [first, second] = (leadValue? first).bind fun high =>
      (Text.hexValue? second).bind fun low => some (UInt8.ofNat (high * 16 + low)) := by
  simp only [readChannel, leadValue?]
  split
  · rfl
  · rfl

/-- A channel is written with the digits that it is made of. -/
theorem channel_ofNat {high low : Nat} (hhigh : high < 16) (hlow : low < 16) :
    channel (UInt8.ofNat (high * 16 + low)) = [digit high, digit low] := by
  have hvalue : (UInt8.ofNat (high * 16 + low)).toNat = high * 16 + low :=
    UInt8.toNat_ofNat_of_lt' (Nat.lt_of_lt_of_le (by omega : high * 16 + low < 256) (by decide))
  have hdiv : (high * 16 + low) / 16 = high := by omega
  have hmod : (high * 16 + low) % 16 = low := by omega
  rw [channel, hvalue, hdiv, hmod]

/-- A channel is read as it was written. -/
theorem readChannel_channel (value : UInt8) : readChannel (channel value) = some value := by
  have hvalue : value.toNat < 256 := value.toNat_lt_size
  have hhigh : value.toNat / 16 < 16 := by omega
  have hlow : value.toNat % 16 < 16 := by omega
  have hplus : ∀ high, high < 16 → digit high ≠ '+' := by decide
  rw [channel, readChannel_pair, leadValue?, if_neg (hplus _ hhigh), hexValue?_digit hhigh,
    Option.bind_some, hexValue?_digit hlow, Option.bind_some, Nat.div_add_mod', UInt8.ofNat_toNat]

theorem channel_injective {one other : UInt8} (h : channel one = channel other) : one = other := by
  have hread := congrArg readChannel h
  rw [readChannel_channel, readChannel_channel] at hread
  exact Option.some.inj hread

/-- A pair writes a channel, which is written again with its plain digits. -/
theorem exists_of_isPair {first second : Char} (h : IsPair first second) :
    ∃ value, readChannel [first, second] = some value ∧
      channel value = [plainDigit first, plainDigit second] := by
  obtain ⟨high, hhigh, hfirst, hlead⟩ := leadValue?_of_lead h.1
  obtain ⟨low, hlow, hsecond, hdigit⟩ := leadValue?_of_lead (Or.inr h.2)
  have hplain : leadValue? second = Text.hexValue? second := if_neg h.2.ne_plus
  rw [readChannel_pair, hfirst, Option.bind_some, ← hplain, hsecond, Option.bind_some]
  refine ⟨_, rfl, ?_⟩
  rw [channel_ofNat hhigh hlow, hlead, hdigit]

/-- **What is read as a channel is a pair.** -/
theorem isPair_of_readChannel {front : List Char} {value : UInt8} (h : readChannel front = some value) :
    ∃ first second, front = [first, second] ∧ IsPair first second := by
  match front, h with
  | [first, second], h =>
    rw [readChannel_pair] at h
    obtain ⟨high, hhigh, h⟩ := Option.bind_eq_some_iff.mp h
    obtain ⟨low, hlow, -⟩ := Option.bind_eq_some_iff.mp h
    exact ⟨first, second, rfl, lead_of_leadValue? hhigh, isHexDigit_of_hexValue? hlow⟩

/-! ## Texts -/

theorem utf8Size_of_isHexDigit {c : Char} (h : IsHexDigit c) : c.utf8Size = 1 :=
  h.of_all (fun c => c.utf8Size = 1) (by decide)

/-- A pair has two bytes. -/
theorem byteLength_of_isPair {first second : Char} (h : IsPair first second) :
    Text.byteLength [first, second] = 2 := by
  have hfirst : first.utf8Size = 1 := by
    rcases h.1 with rfl | hdigit
    · rfl
    · exact utf8Size_of_isHexDigit hdigit
  simp only [Text.byteLength_cons, Text.byteLength_nil, hfirst, utf8Size_of_isHexDigit h.2]

variable {text : List Char} {next : UInt8 → List Char → Reading} {color : Color}

/-- Behind a pair, reading goes on with its channel. -/
theorem thenChannel_pair {first second : Char} (next : UInt8 → List Char → Reading) (h : IsPair first second)
    (rest : List Char) :
    ∃ value, readChannel [first, second] = some value ∧
      channel value = [plainDigit first, plainDigit second] ∧
      thenChannel (first :: second :: rest) next = next value rest := by
  obtain ⟨value, hread, hchannel⟩ := exists_of_isPair h
  have hcut : Text.cutBytes 2 (first :: second :: rest) = some ([first, second], rest) :=
    Text.cutBytes_eq_some_iff.mpr ⟨rfl, byteLength_of_isPair h⟩
  refine ⟨value, hread, hchannel, ?_⟩
  simp only [thenChannel, hcut, hread]

/-- A text begins with a pair. -/
def BeginsWithPair (text : List Char) : Prop :=
  ∃ first second rest, text = first :: second :: rest ∧ IsPair first second

/-- Where there is no pair, reading ends: with a refusal, or because a character lies across the end of the first two
bytes. -/
theorem thenChannel_of_not_pair (h : ¬BeginsWithPair text) :
    thenChannel text next = if Text.IsBoundary text 2 then .refused else .split := by
  rcases hcut : Text.cutBytes 2 text with _ | ⟨front, back⟩
  · rw [if_neg (Text.cutBytes_eq_none_iff.mp hcut)]
    simp only [thenChannel, hcut]
  · obtain ⟨rfl, hbytes⟩ := Text.cutBytes_eq_some_iff.mp hcut
    rw [if_pos ⟨front, back, rfl, hbytes⟩]
    rcases hread : readChannel front with _ | value
    · simp only [thenChannel, hcut, hread]
    · obtain ⟨first, second, rfl, hpair⟩ := isPair_of_readChannel hread
      exact absurd ⟨first, second, back, rfl, hpair⟩ h

/-! ## Cut characters -/

/-- A pair ends between two characters. -/
theorem BeginsWithPair.isBoundary (h : BeginsWithPair text) : Text.IsBoundary text 2 := by
  obtain ⟨first, second, rest, rfl, hpair⟩ := h
  exact ⟨[first, second], rest, rfl, byteLength_of_isPair hpair⟩

theorem byteLength_behind_pair {first second : Char} (h : IsPair first second) (rest : List Char) :
    Text.byteLength (first :: second :: rest) = 2 + Text.byteLength rest := by
  rw [← byteLength_of_isPair h, ← Text.byteLength_append]
  rfl

/-- If what follows a pair is cut between characters only, then a character is cut here or nowhere. -/
theorem thenChannel_eq_split_iff
    (hnext : ∀ first second rest value, text = first :: second :: rest → IsPair first second →
      next value rest ≠ .split) :
    thenChannel text next = .split ↔ ¬Text.IsBoundary text 2 := by
  by_cases hpair : BeginsWithPair text
  · rw [iff_false_right (not_not_intro hpair.isBoundary)]
    obtain ⟨first, second, rest, rfl, hpair⟩ := hpair
    obtain ⟨value, -, -, hgoes⟩ := thenChannel_pair next hpair rest
    rw [hgoes]
    exact hnext first second rest value rfl hpair
  · rw [thenChannel_of_not_pair hpair]
    split
    · rename_i hboundary
      exact ⟨nofun, fun h => absurd hboundary h⟩
    · rename_i hboundary
      exact ⟨fun _ => hboundary, fun _ => rfl⟩

/-- The last two bytes of a text are not cut. -/
theorem thenChannel_ne_split (h : Text.byteLength text = 2) (hnext : ∀ value rest, next value rest ≠ .split) :
    thenChannel text next ≠ .split := by
  intro hsplit
  refine (thenChannel_eq_split_iff fun _ _ rest value _ _ => hnext value rest).mp hsplit ?_
  exact ⟨text, [], (List.append_nil text).symm, h⟩

/-- Six bytes are straddled: a character lies across the end of the first two, or these are a pair and a character lies
across the end of the first four. -/
def IsStraddled (digits : List Char) : Prop :=
  Text.byteLength digits = 6 ∧
    (¬Text.IsBoundary digits 2 ∨ (BeginsWithPair digits ∧ ¬Text.IsBoundary digits 4))

/-- **A cut falls inside a character only in six bytes that are straddled.** -/
theorem read_eq_split_iff (text : List Char) :
    read text = .split ↔ IsStraddled (text.dropWhile (· = '#')) := by
  unfold read IsStraddled
  generalize text.dropWhile (· = '#') = digits
  dsimp only
  by_cases hlength : Text.byteLength digits = 6
  · rw [if_pos hlength, iff_true_intro hlength, true_and]
    by_cases hpair : BeginsWithPair digits
    · rw [iff_false_intro (not_not_intro hpair.isBoundary), iff_true_intro hpair, false_or, true_and]
      obtain ⟨first, second, rest, rfl, hpair⟩ := hpair
      -- the second cut is the first one of what is left, and behind it there are two bytes
      have hboundary : Text.IsBoundary (first :: second :: rest) 4 ↔ Text.IsBoundary rest 2 := by
        rw [← Text.isBoundary_append_iff [first, second] rest 2, byteLength_of_isPair hpair]
        rfl
      rw [byteLength_behind_pair hpair] at hlength
      obtain ⟨red, -, -, hgoes⟩ := thenChannel_pair _ hpair rest
      rw [hgoes, hboundary]
      refine thenChannel_eq_split_iff fun third fourth last green heq hsecond => ?_
      rw [heq, byteLength_behind_pair hsecond] at hlength
      exact thenChannel_ne_split (by omega) fun _ _ => nofun
    · rw [thenChannel_of_not_pair hpair, iff_false_intro hpair, false_and, or_false]
      split
      · rename_i hboundary
        exact ⟨nofun, fun h => absurd hboundary h⟩
      · rename_i hboundary
        exact ⟨fun _ => hboundary, fun _ => rfl⟩
  · rw [if_neg hlength]
    exact ⟨nofun, fun h => absurd h.1 hlength⟩

/-- Two characters of three bytes each are straddled, and so not every text is read. -/
theorem exists_split : ¬∀ text : List Char, read text ≠ .split :=
  fun h => h "日日".toList (by decide)

/-! ## What is read -/

theorem thenChannel_eq_color (h : thenChannel text next = .color color) :
    ∃ first second rest value, text = first :: second :: rest ∧ IsPair first second ∧
      channel value = [plainDigit first, plainDigit second] ∧ next value rest = .color color := by
  by_cases hpair : BeginsWithPair text
  · obtain ⟨first, second, rest, rfl, hpair⟩ := hpair
    obtain ⟨value, -, hchannel, hgoes⟩ := thenChannel_pair next hpair rest
    exact ⟨first, second, rest, value, rfl, hpair, hchannel, hgoes ▸ h⟩
  · rw [thenChannel_of_not_pair hpair] at h
    split at h
    · cases h
    · cases h

/-- Six characters that write a colour: three pairs. -/
inductive IsSpelled : List Char → Prop where
  /-- one pair for each channel -/
  | pairs {a b c d e f : Char} (red : IsPair a b) (green : IsPair c d) (blue : IsPair e f) :
    IsSpelled [a, b, c, d, e, f]

theorem css_eq {a b c d e f : Char} (hred : channel color.red = [a, b]) (hgreen : channel color.green = [c, d])
    (hblue : channel color.blue = [e, f]) : color.css = ['#', a, b, c, d, e, f] := by
  rw [css, hred, hgreen, hblue]
  rfl

/-- A colour is written in one way only. -/
theorem css_injective {one other : Color} (h : one.css = other.css) : one = other := by
  obtain ⟨red, green, blue⟩ := one
  obtain ⟨red', green', blue'⟩ := other
  simp only [css, List.cons_append, List.cons.injEq, true_and] at h
  obtain ⟨hfront, hblue⟩ := List.append_inj h rfl
  obtain ⟨hred, hgreen⟩ := List.append_inj hfront rfl
  rw [channel_injective hred, channel_injective hgreen, channel_injective hblue]

/-- Six characters that write a colour are read as it, whatever hash signs stand in front of them. -/
theorem exists_of_isSpelled {digits : List Char} (h : IsSpelled digits) (count : Nat) :
    ∃ color, read (List.replicate count '#' ++ digits) = .color color ∧
      color.css = '#' :: digits.map plainDigit := by
  obtain ⟨hred, hgreen, hblue⟩ := h
  rename_i a b c d e f
  have hhash : a ≠ '#' := by
    rintro rfl
    exact absurd hred.1 (by decide)
  have hdrop : (List.replicate count '#' ++ [a, b, c, d, e, f]).dropWhile (· = '#') = [a, b, c, d, e, f] := by
    rw [List.dropWhile_append_of_pos (by simp), List.dropWhile_cons_of_neg (by simpa using hhash)]
  have hlength : Text.byteLength [a, b, c, d, e, f] = 6 := by
    rw [byteLength_behind_pair hred, byteLength_behind_pair hgreen, byteLength_of_isPair hblue]
  obtain ⟨red, -, hredDigits, hredGoes⟩ := thenChannel_pair _ hred [c, d, e, f]
  obtain ⟨green, -, hgreenDigits, hgreenGoes⟩ := thenChannel_pair _ hgreen [e, f]
  obtain ⟨blue, -, hblueDigits, hblueGoes⟩ := thenChannel_pair _ hblue []
  refine ⟨⟨red, green, blue⟩, ?_, css_eq hredDigits hgreenDigits hblueDigits⟩
  simp only [read, hdrop]
  rw [if_pos hlength, hredGoes, hgreenGoes, hblueGoes]

/-- What is read as a colour is three pairs behind hash signs. -/
theorem isSpelled_of_read (h : read text = .color color) :
    ∃ count digits, text = List.replicate count '#' ++ digits ∧ IsSpelled digits := by
  refine ⟨(text.takeWhile (· = '#')).length, text.dropWhile (· = '#'), ?_, ?_⟩
  · have hhashes : text.takeWhile (· = '#') = List.replicate (text.takeWhile (· = '#')).length '#' :=
      List.eq_replicate_of_mem fun c hc => by simpa only [decide_eq_true_eq] using List.mem_takeWhile_imp hc
    rw [← hhashes, List.takeWhile_append_dropWhile]
  · unfold read at h
    dsimp only at h
    split at h
    · rename_i hlength
      obtain ⟨a, b, rest, red, hrest, hred, -, h⟩ := thenChannel_eq_color h
      obtain ⟨c, d, rest, green, rfl, hgreen, -, h⟩ := thenChannel_eq_color h
      obtain ⟨e, f, rest, blue, rfl, hblue, -, h⟩ := thenChannel_eq_color h
      rw [hrest, byteLength_behind_pair hred, byteLength_behind_pair hgreen,
        byteLength_behind_pair hblue] at hlength
      obtain rfl : rest = [] := by
        rcases rest with _ | ⟨c, rest⟩
        · rfl
        · have hsize := c.utf8Size_pos
          rw [Text.byteLength_cons] at hlength
          omega
      rw [hrest]
      exact .pairs hred hgreen hblue
    · cases h

/-- **What is read as a colour is three pairs behind hash signs, and the colour is the one written with their plain
digits.** -/
theorem read_eq_iff_isSpelled :
    read text = .color color ↔
      ∃ count digits, text = List.replicate count '#' ++ digits ∧ IsSpelled digits ∧
        color.css = '#' :: digits.map plainDigit := by
  refine ⟨fun h => ?_, ?_⟩
  · obtain ⟨count, digits, rfl, hspelled⟩ := isSpelled_of_read h
    obtain ⟨other, hread, hcss⟩ := exists_of_isSpelled hspelled count
    obtain rfl : other = color := Reading.color.inj (hread.symm.trans h)
    exact ⟨count, digits, rfl, hspelled, hcss⟩
  · rintro ⟨count, digits, rfl, hspelled, hcss⟩
    obtain ⟨other, hread, hother⟩ := exists_of_isSpelled hspelled count
    rw [hread, css_injective (hother.trans hcss.symm)]

/-- **A colour is read as it was written.** -/
theorem read_css (color : Color) : read color.css = .color color := by
  have hdigits : ∀ value, value < 16 → IsHexDigit (digit value) ∧ plainDigit (digit value) = digit value := by decide
  have hchannel : ∀ value : UInt8, ∃ high low, channel value = [high, low] ∧ IsPair high low ∧
      plainDigit high = high ∧ plainDigit low = low := by
    intro value
    have hvalue : value.toNat < 256 := value.toNat_lt_size
    obtain ⟨hhigh, hhighPlain⟩ := hdigits (value.toNat / 16) (by omega)
    obtain ⟨hlow, hlowPlain⟩ := hdigits (value.toNat % 16) (by omega)
    exact ⟨_, _, rfl, ⟨Or.inr hhigh, hlow⟩, hhighPlain, hlowPlain⟩
  obtain ⟨a, b, hred, hredPair, ha, hb⟩ := hchannel color.red
  obtain ⟨c, d, hgreen, hgreenPair, hc, hd⟩ := hchannel color.green
  obtain ⟨e, f, hblue, hbluePair, he, hf⟩ := hchannel color.blue
  refine read_eq_iff_isSpelled.mpr ⟨1, _, css_eq hred hgreen hblue, .pairs hredPair hgreenPair hbluePair, ?_⟩
  simp only [css_eq hred hgreen hblue, List.map_cons, List.map_nil, ha, hb, hc, hd, he, hf]

/-- Without plus signs, six characters that write a colour are six digits. -/
theorem isSpelled_iff {digits : List Char} (h : '+' ∉ digits) :
    IsSpelled digits ↔ digits.length = 6 ∧ ∀ c ∈ digits, IsHexDigit c := by
  refine ⟨?_, ?_⟩
  · rintro ⟨hred, hgreen, hblue⟩
    simp only [List.mem_cons, List.not_mem_nil, or_false, not_or] at h
    obtain ⟨ha, hb, hc, hd, he, hf⟩ := h
    refine ⟨rfl, ?_⟩
    simp only [List.mem_cons, List.not_mem_nil, or_false, forall_eq_or_imp, forall_eq]
    exact ⟨hred.1.resolve_left (Ne.symm ha), hred.2, hgreen.1.resolve_left (Ne.symm hc), hgreen.2,
      hblue.1.resolve_left (Ne.symm he), hblue.2⟩
  · rintro ⟨hlength, hall⟩
    match digits, hlength with
    | [a, b, c, d, e, f], _ =>
      simp only [List.mem_cons, List.not_mem_nil, or_false, forall_eq_or_imp, forall_eq] at hall
      obtain ⟨ha, hb, hc, hd, he, hf⟩ := hall
      exact .pairs ⟨Or.inr ha, hb⟩ ⟨Or.inr hc, hd⟩ ⟨Or.inr he, hf⟩

/-- **Reading takes what is written, and pairs with a plus sign besides.** A colour is read as it was written. What is
read as a colour is three pairs behind hash signs, and the colour is the one that is written with the plain digits of the
pairs. So among the texts without a plus sign these are the ones with six digits behind hash signs, and the colour is
written with the same digits in lower case. -/
theorem read_eq_color_iff (text : List Char) (color : Color) :
    read color.css = .color color ∧
      (read text = .color color ↔
        ∃ count digits, text = List.replicate count '#' ++ digits ∧ IsSpelled digits ∧
          color.css = '#' :: digits.map plainDigit) ∧
      ('+' ∉ text → (read text = .color color ↔
        ∃ count digits, text = List.replicate count '#' ++ digits ∧
          (digits.length = 6 ∧ ∀ c ∈ digits, IsHexDigit c) ∧ color.css = '#' :: digits.map Char.toLower)) := by
  refine ⟨read_css color, read_eq_iff_isSpelled, fun hplus => ?_⟩
  rw [read_eq_iff_isSpelled]
  refine exists_congr fun count => exists_congr fun digits => and_congr_right fun htext => ?_
  have hdigits : '+' ∉ digits := fun hm => hplus (htext ▸ List.mem_append_right _ hm)
  have hplain : digits.map plainDigit = digits.map Char.toLower :=
    List.map_congr_left fun c hc => if_neg fun heq : c = '+' => hdigits (heq ▸ hc)
  rw [isSpelled_iff hdigits, hplain]

/-- Two hash signs and digits in either case. -/
theorem read_eq_color_iff_mixed : '+' ∉ "##FfAa09".toList ∧ read "##FfAa09".toList = .color ⟨255, 170, 9⟩ := by
  have hplus : '+' ∉ "##FfAa09".toList := by decide
  refine ⟨hplus, ((read_eq_color_iff _ _).2.2 hplus).mpr ⟨2, "FfAa09".toList, by decide, ⟨rfl, ?_⟩, by decide⟩⟩
  have hall : ("FfAa09".toList.all fun c => IsHexDigit c) = true := by decide
  exact fun c hc => of_decide_eq_true (List.all_eq_true.mp hall c hc)

/-- A plus sign is no digit, and yet it is let in. -/
theorem read_signed : ¬∀ (text : List Char) (color : Color), read text = .color color ↔
    ∃ count digits, text = List.replicate count '#' ++ digits ∧
      (digits.length = 6 ∧ ∀ c ∈ digits, IsHexDigit c) ∧ color.css = '#' :: digits.map Char.toLower := by
  intro h
  have hread : read "+1+2+3".toList = .color ⟨1, 2, 3⟩ := by decide
  obtain ⟨count, digits, htext, ⟨-, hall⟩, -⟩ := (h _ _).mp hread
  have hplus : '+' ∈ List.replicate count '#' ++ digits := htext ▸ by decide
  rcases List.mem_append.mp hplus with hm | hm
  · exact absurd (List.eq_of_mem_replicate hm) (by decide)
  · exact absurd (hall _ hm) (by decide)

end CodeMarkup.Color
