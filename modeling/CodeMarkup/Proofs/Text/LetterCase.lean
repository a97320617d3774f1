import CodeMarkup.Text.Utf8

/-!
# Letter case in bytes

Bytes that differ in the case of ASCII letters at most are texts that differ so, or neither of them is a text
(`lower_decode?`). An ASCII byte is a character by itself, and it is none of the bytes that a character of several
bytes may have, so such a character is read to the same end from either. The reader goes byte by byte, and the proof
goes with it: what one byte does to the reader is said first (`advance`).
-/

namespace CodeMarkup.Text.Utf8

/-- A byte in lower case, if it is an ASCII letter. -/
def lowerByte (b : UInt8) : UInt8 :=
  if 0x41 ≤ b ∧ b ≤ 0x5A then b + 0x20 else b

/-! ## Bytes -/

/-- Bytes that differ in case are ASCII. -/
theorem eq_or_ascii_of_lowerByte {b c : UInt8} (h : lowerByte b = lowerByte c) : b = c ∨ b < 0x80 ∧ c < 0x80 := by
  unfold lowerByte at h
  simp only [UInt8.le_iff_toNat_le, UInt8.lt_iff_toNat_lt, ← UInt8.toNat_inj] at h ⊢
  split at h <;> split at h <;> simp only [UInt8.toNat_add, UInt8.reduceToNat] at * <;> omega

/-- Lowering a byte lowers the character that it is by itself. -/
theorem toLower_ascii {b : UInt8} (h : b < 0x80) :
    (Char.ofNat b.toNat).toLower = Char.ofNat (lowerByte b).toNat := by
  have hall : ∀ n < 0x80, (Char.ofNat n).toLower = Char.ofNat (lowerByte (UInt8.ofNat n)).toNat := by decide
  have hb := hall b.toNat (UInt8.lt_iff_toNat_lt.mp h)
  rwa [UInt8.ofNat_toNat] at hb

/-! ## One byte at a time -/

/-- What a byte yields that begins afresh, and the state after it. -/
def begin (b : UInt8) : List (Option Char) × Option Partial :=
  if b < 0x80 then ([some (Char.ofNat b.toNat)], none)
  else match Partial.ofLead b with
    | some p => ([], some p)
    | none => ([none], none)

/-- What a byte yields in a state, and the state after it. -/
def advance : Option Partial → UInt8 → List (Option Char) × Option Partial
  | none, b => begin b
  | some p, b =>
    if p.accepts b then
      if (p.push b).owed = 0 then ([some (Char.ofNat (p.push b).value)], none) else ([], some (p.push b))
    else (none :: (begin b).1, (begin b).2)

theorem piecesFrom_cons (state : Option Partial) (b : UInt8) (rest : List UInt8) :
    piecesFrom state (b :: rest) = (advance state b).1 ++ piecesFrom (advance state b).2 rest := by
  have hbegin : piecesFrom none (b :: rest) = (begin b).1 ++ piecesFrom (begin b).2 rest := by
    rw [piecesFrom, begin]
    split
    · rfl
    · rcases Partial.ofLead b with _ | p <;> rfl
  cases state with
  | none => exact hbegin
  | some p =>
    rw [advance, piecesFrom]
    split
    · dsimp only
      split <;> rfl
    · rw [List.cons_append, ← hbegin, piecesFrom]
      split
      · rfl
      · rcases Partial.ofLead b with _ | p <;> rfl

/-- No ASCII byte is accepted inside a character. -/
def Multibyte (state : Option Partial) : Prop :=
  ∀ p ∈ state, 0x80 ≤ p.low

theorem multibyte_none : Multibyte none :=
  fun _ h => absurd h (Option.not_mem_none _)

theorem Partial.low_of_ofLead {b : UInt8} {p : Partial} (h : ofLead b = some p) : 0x80 ≤ p.low := by
  unfold ofLead at h
  repeat' split at h
  all_goals simp only [Option.some.injEq, reduceCtorEq] at h
  all_goals
    subst h
    dsimp only
    decide

theorem multibyte_begin (b : UInt8) : Multibyte (begin b).2 := by
  unfold begin
  split
  · exact multibyte_none
  · split
    · rename_i p hlead
      rintro _ ⟨⟩
      exact Partial.low_of_ofLead hlead
    · exact multibyte_none

theorem multibyte_advance (state : Option Partial) (b : UInt8) : Multibyte (advance state b).2 := by
  cases state with
  | none => exact multibyte_begin b
  | some p =>
    simp only [advance]
    split
    · split
      · exact multibyte_none
      · intro q hq
        obtain rfl := Option.some.inj hq
        exact UInt8.le_refl _
    · exact multibyte_begin b

/-- Inside a character an ASCII byte ends it as a damaged piece, and is then a character by itself. -/
theorem advance_ascii {state : Option Partial} (hstate : Multibyte state) {b : UInt8} (h : b < 0x80) :
    advance state b = (state.toList.map (fun _ => none) ++ [some (Char.ofNat b.toNat)], none) := by
  cases state with
  | none => rw [advance, begin, if_pos h]; rfl
  | some p =>
    have hlow : 0x80 ≤ p.low := hstate p rfl
    have hrefused : ¬p.accepts b = true := by
      rw [Partial.accepts, Bool.and_eq_true, decide_eq_true_eq]
      exact fun haccepts => absurd (UInt8.le_trans hlow haccepts.1) (UInt8.not_le.mpr h)
    rw [advance, if_neg hrefused, begin, if_pos h]
    rfl

/-! ## Texts -/

variable {bytes others : List UInt8}

/-- Bytes that differ in case at most are read piece by piece to characters that do. -/
theorem lower_piecesFrom (h : bytes.map lowerByte = others.map lowerByte) {state : Option Partial}
    (hstate : Multibyte state) :
    (piecesFrom state bytes).map (Option.map Char.toLower)
      = (piecesFrom state others).map (Option.map Char.toLower) := by
  induction bytes generalizing others state with
  | nil =>
    obtain rfl := List.map_eq_nil_iff.mp h.symm
    rfl
  | cons b rest ih =>
    obtain ⟨c, more, rfl, hbyte, hrest⟩ := List.map_eq_cons_iff.mp h.symm
    rw [piecesFrom_cons, piecesFrom_cons, List.map_append, List.map_append]
    rcases eq_or_ascii_of_lowerByte hbyte with rfl | ⟨hc, hb⟩
    · rw [ih hrest.symm (multibyte_advance state c)]
    · have hsame : (Char.ofNat b.toNat).toLower = (Char.ofNat c.toNat).toLower := by
        rw [toLower_ascii hb, toLower_ascii hc, hbyte]
      rw [advance_ascii hstate hb, advance_ascii hstate hc, ih hrest.symm multibyte_none]
      simp [hsame]

/-- The characters that are read are all there, or they are not, whatever their case. -/
theorem mapM_lower (read : List (Option Char)) :
    (read.map (Option.map Char.toLower)).mapM id = (read.mapM id).map (List.map Char.toLower) := by
  induction read with
  | nil => rfl
  | cons piece rest ih =>
    rw [List.map_cons, List.mapM_cons, List.mapM_cons, ih]
    cases piece with
    | none => rfl
    | some c => cases rest.mapM id <;> rfl

/-- **Bytes that differ in the case of ASCII letters at most are texts that do, or no texts at all.** -/
theorem lower_decode? (h : bytes.map lowerByte = others.map lowerByte) :
    (decode? bytes).map (fun text => text.toList.map Char.toLower)
      = (decode? others).map (fun text => text.toList.map Char.toLower) := by
  have hpieces := congrArg (List.mapM id) (lower_piecesFrom h multibyte_none)
  rw [mapM_lower, mapM_lower] at hpieces
  simpa only [decode?, pieces, Option.map_map, Function.comp_def, String.toList_ofList] using hpieces

end CodeMarkup.Text.Utf8
