import CodeMarkup.Install.RecordFormat
import CodeMarkup.Proofs.Json.Written

/-!
# A written record is read back

Reading the members of a written object takes a state from member to member (`Follow`), whatever stands after
the object (`readMembers_writeObject`). A note and the notes of a record are read back that way, and from that a
whole record is (`read?_write`), provided that it has one note to a name. Every record that was read has, and
setting a note leaves it so.
-/

namespace CodeMarkup.InstallRecord

/-! ## Objects -/

section

variable {σ : Type} {member : σ → List Char → List Char → Option (σ × List Char)}

/-- A text that stands after a value in a written object. -/
def EndsValue (rest : List Char) : Prop :=
  rest.head? = some ',' ∨ rest.head? = some '\n'

/-- A member's value takes the state of reading on, in front of what stands after a value. -/
def Takes (member : σ → List Char → List Char → Option (σ × List Char)) (state : σ)
    (pair : List Char × List Char) (next : σ) : Prop :=
  ∀ rest, EndsValue rest → member state pair.1 (Json.skipBlanks (pair.2 ++ rest)) = some (next, rest)

/-- Members take the state of reading from one to the next. -/
inductive Follow (member : σ → List Char → List Char → Option (σ × List Char)) :
    σ → List (List Char × List Char) → σ → Prop where
  /-- at the end -/
  | nil (state : σ) : Follow member state [] state
  /-- by a member and those after it -/
  | cons {state next last : σ} {pair : List Char × List Char} {rest : List (List Char × List Char)}
      (hfirst : Takes member state pair next) (hrest : Follow member next rest last) :
    Follow member state (pair :: rest) last

/-- A member as it is written on its line. -/
def memberText (pair : List Char × List Char) : List Char :=
  Json.writeString pair.1 ++ [':', ' '] ++ pair.2

/-- What stands after a member: those after it, and the end of the object. -/
def membersTail (margin : List Char) (members : List (List Char × List Char)) (after : List Char) : List Char :=
  members.flatMap (fun pair => ',' :: '\n' :: ' ' :: ' ' :: margin ++ memberText pair)
    ++ '\n' :: margin ++ '}' :: after

/-- Reading one member: with the end of the object it is over, and with a comma it goes on. -/
theorem readMembersFrom_memberText {state next : σ} {pair : List Char × List Char} {text tail : List Char}
    (h : Takes member state pair next) (htail : EndsValue tail)
    (htext : Json.skipBlanks text = memberText pair ++ tail) (fuel : Nat) (rest : List Char) :
    (Json.skipBlanks tail = '}' :: rest →
      Json.readMembersFrom member (fuel + 1) state text = some (next, rest)) ∧
    (Json.skipBlanks tail = ',' :: rest →
      Json.readMembersFrom member (fuel + 1) state text = Json.readMembersFrom member fuel next rest) := by
  have hcolon : Json.skipBlanks (':' :: ' ' :: (pair.2 ++ tail)) = ':' :: ' ' :: (pair.2 ++ tail) :=
    Json.skipBlanks_cons_of_not rfl _
  have hvalue : Json.skipBlanks (' ' :: (pair.2 ++ tail)) = Json.skipBlanks (pair.2 ++ tail) :=
    List.dropWhile_cons_of_pos rfl
  have hquote : memberText pair ++ tail
      = '"' :: (pair.1.flatMap Json.stringChar ++ '"' :: ':' :: ' ' :: (pair.2 ++ tail)) := by
    simp [memberText, Json.writeString]
  rw [Json.readMembersFrom, htext, hquote]
  simp only [Json.readString_written, Option.bind_eq_bind, Option.bind_some, hcolon, hvalue, h tail htail]
  constructor
  · intro hend
    simp only [hend]
  · intro hcomma
    simp only [hcomma]

theorem endsValue_membersTail (margin : List Char) (members : List (List Char × List Char))
    (after : List Char) : EndsValue (membersTail margin members after) := by
  rcases members with _ | ⟨first, rest⟩
  · exact Or.inr rfl
  · exact Or.inl rfl

theorem length_le_membersTail (margin : List Char) (members : List (List Char × List Char))
    (after : List Char) : members.length ≤ (membersTail margin members after).length := by
  induction members with
  | nil => exact Nat.zero_le _
  | cons first rest ih =>
    simp only [membersTail, List.flatMap_cons, List.length_append, List.length_cons] at ih ⊢
    omega

variable {margin : List Char} (hmargin : ∀ c ∈ margin, Json.isBlank c = true)
include hmargin

theorem readMembersFrom_written {state last : σ} {first : List Char × List Char}
    {rest : List (List Char × List Char)} (h : Follow member state (first :: rest) last) {fuel : Nat}
    (hfuel : rest.length ≤ fuel) {text after : List Char}
    (htext : Json.skipBlanks text = memberText first ++ membersTail margin rest after) :
    Json.readMembersFrom member (fuel + 1) state text = some (last, after) := by
  have hblank : ∀ c ∈ '\n' :: margin, Json.isBlank c = true := List.forall_mem_cons.mpr ⟨rfl, hmargin⟩
  have hinner : ∀ c ∈ '\n' :: ' ' :: ' ' :: margin, Json.isBlank c = true := by simpa using ⟨rfl, rfl, hmargin⟩
  induction rest generalizing state first fuel text with
  | nil =>
    obtain _ | ⟨hfirst, hrest⟩ := h
    cases hrest
    have hend : Json.skipBlanks (membersTail margin [] after) = '}' :: after := by
      rw [membersTail, List.flatMap_nil, List.nil_append, Json.skipBlanks_append hblank]
      exact Json.skipBlanks_cons_of_not rfl _
    exact (readMembersFrom_memberText hfirst (endsValue_membersTail _ _ _) htext _ _).1 hend
  | cons second rest ih =>
    obtain _ | ⟨hfirst, hrest⟩ := h
    obtain ⟨fuel, rfl⟩ := Nat.exists_eq_add_one_of_ne_zero (Nat.ne_zero_of_lt hfuel)
    have hnext : Json.skipBlanks (membersTail margin (second :: rest) after)
        = ',' :: ('\n' :: ' ' :: ' ' :: margin ++ (memberText second ++ membersTail margin rest after)) := by
      rw [membersTail, List.flatMap_cons]
      exact (Json.skipBlanks_cons_of_not rfl _).trans (by simp [membersTail])
    rw [(readMembersFrom_memberText hfirst (endsValue_membersTail _ _ _) htext _ _).2 hnext]
    refine ih hrest (Nat.le_of_succ_le_succ hfuel) ?_
    rw [Json.skipBlanks_append hinner]
    exact Json.skipBlanks_cons_of_not rfl _

omit hmargin in
theorem skipBlanks_writeObject (members : List (List Char × List Char)) (rest : List Char) :
    Json.skipBlanks (writeObject margin members ++ rest) = writeObject margin members ++ rest := by
  rcases members with _ | ⟨first, others⟩
  · exact Json.skipBlanks_cons_of_not rfl _
  · exact Json.skipBlanks_cons_of_not rfl _

/-- **The members of a written object are read back**, whatever stands after the object. -/
theorem readMembers_writeObject {state last : σ} {members : List (List Char × List Char)}
    (h : Follow member state members last) (after : List Char) :
    ∃ text, writeObject margin members ++ after = '{' :: text ∧
      Json.readMembers member state text = some (last, after) := by
  rcases members with _ | ⟨first, rest⟩
  · cases h
    exact ⟨'}' :: after, rfl, rfl⟩
  · refine ⟨'\n' :: ' ' :: ' ' :: margin ++ (memberText first ++ membersTail margin rest after), ?_, ?_⟩
    · simp [writeObject, membersTail, memberText]
    · have hinner : ∀ c ∈ '\n' :: ' ' :: ' ' :: margin, Json.isBlank c = true := by
        simpa using ⟨rfl, rfl, hmargin⟩
      have hquote : Json.skipBlanks (memberText first ++ membersTail margin rest after)
          = memberText first ++ membersTail margin rest after := Json.skipBlanks_cons_of_not rfl _
      obtain ⟨fuel, hlength, hfuel⟩ : ∃ fuel,
          (memberText first ++ membersTail margin rest after).length = fuel + 1 ∧ rest.length ≤ fuel := by
        refine ⟨(memberText first ++ membersTail margin rest after).length - 1, ?_, ?_⟩
        all_goals
          have hlong := length_le_membersTail margin rest after
          simp only [memberText, Json.writeString, List.length_append, List.length_cons, List.length_nil]
          omega
      rw [Json.readMembers, Json.skipBlanks_append hinner, hquote]
      change Json.readMembersFrom member (memberText first ++ membersTail margin rest after).length state _ = _
      rw [hlength]
      exact readMembersFrom_written hmargin h hfuel hquote

end

/-! ## Notes -/

theorem EndsValue.endsWord {rest : List Char} (h : EndsValue rest) : Json.EndsWord rest := by
  intro c hc
  rcases h with h | h
  all_goals
    obtain rfl := Option.some.inj (h.symm.trans hc)
    decide

theorem skipBlanks_decimal (value : Nat) (rest : List Char) :
    Json.skipBlanks (Text.decimal value ++ rest) = Text.decimal value ++ rest := by
  obtain ⟨c, digits, hdigits⟩ := List.exists_cons_of_ne_nil (Nat.toDigits_ne_nil (n := value) (b := 10))
  have hmem : c ∈ Text.decimal value := by simp [Text.decimal, hdigits]
  have hdigit : c.isDigit = true := Json.isDigit_of_mem_decimal hmem
  rw [Text.decimal, hdigits]
  exact Json.skipBlanks_cons_of_not (Json.isBlank_of_isDigit hdigit) _

theorem readWordUpTo_decimal {limit value : Nat} (h : value ≤ limit) {rest : List Char} (hrest : EndsValue rest) :
    Json.readWordUpTo limit (Json.skipBlanks (Text.decimal value ++ rest)) = some (value, rest) := by
  rw [skipBlanks_decimal, Json.readWordUpTo, Json.readWord_decimal value hrest.endsWord]
  simp [h]

theorem abi_le (note : InstallNote) : note.abi.toNat ≤ abiLimit :=
  Nat.le_of_lt_succ note.abi.toNat_lt

theorem installedAt_le (note : InstallNote) : note.installedAt.toNat ≤ timeLimit :=
  Nat.le_of_lt_succ note.installedAt.toNat_lt

/-- **A written note is read back.** -/
theorem readNote_writeNote (note : InstallNote) (rest : List Char) :
    readNote (writeNote note ++ rest) = some (note, rest) := by
  have hfirst : Takes readNoteMember ⟨none, none⟩ ("abi_version".toList, Text.decimal note.abi.toNat)
      ⟨some note.abi.toNat, none⟩ := by
    intro rest hrest
    dsimp only
    rw [readNoteMember, if_pos rfl, readWordUpTo_decimal (abi_le note) hrest]
    rfl
  have hsecond : Takes readNoteMember ⟨some note.abi.toNat, none⟩
      ("installed_at".toList, Text.decimal note.installedAt.toNat)
      ⟨some note.abi.toNat, some note.installedAt.toNat⟩ := by
    intro rest hrest
    dsimp only
    rw [readNoteMember, if_neg (by decide), if_pos rfl, readWordUpTo_decimal (installedAt_le note) hrest]
    rfl
  have hmargin : ∀ c ∈ [' ', ' ', ' ', ' '], Json.isBlank c = true := by simp [Json.isBlank]
  obtain ⟨text, htext, hread⟩ := readMembers_writeObject hmargin (.cons hfirst (.cons hsecond (.nil _))) rest
  rw [writeNote, htext, readNote]
  simp [hread]

/-! ## One note to a name -/

/-- There is one note to a name. -/
def Distinct (record : InstallRecord) : Prop :=
  (record.notes.map Prod.fst).Nodup

theorem setNote_of_not_mem {name : String} {notes : List (String × InstallNote)}
    (h : name ∉ notes.map Prod.fst) (note : InstallNote) : setNote name note notes = notes ++ [(name, note)] := by
  induction notes with
  | nil => rfl
  | cons pair rest ih =>
    rw [List.map_cons, List.mem_cons, not_or] at h
    rw [setNote, if_neg (Ne.symm h.1), ih h.2, List.cons_append]

theorem map_fst_setNote (name : String) (note : InstallNote) (notes : List (String × InstallNote)) :
    (setNote name note notes).map Prod.fst
      = if name ∈ notes.map Prod.fst then notes.map Prod.fst else notes.map Prod.fst ++ [name] := by
  induction notes with
  | nil => rfl
  | cons pair rest ih =>
    obtain ⟨other, old⟩ := pair
    rw [setNote]
    split
    · rename_i hsame
      simp [hsame]
    · rename_i hne
      rw [List.map_cons, ih, List.map_cons]
      by_cases hmem : name ∈ rest.map Prod.fst
      · rw [if_pos hmem, if_pos (List.mem_cons_of_mem _ hmem)]
      · rw [if_neg hmem, if_neg (by simpa [Ne.symm hne] using hmem)]
        rfl

/-- Setting a note keeps one note to a name. -/
theorem Distinct.set {record : InstallRecord} (h : record.Distinct) (name : String) (note : InstallNote) :
    (record.set name note).Distinct := by
  rw [Distinct, InstallRecord.set, map_fst_setNote]
  split
  · exact h
  · rename_i hfresh
    exact List.nodup_append.mpr ⟨h, List.pairwise_singleton _ _, by
      rintro one hone other hother rfl
      exact hfresh (List.mem_singleton.mp hother ▸ hone)⟩

/-! ## Records -/

theorem follow_readNamedNote {front rest : List (String × InstallNote)}
    (h : ((front ++ rest).map Prod.fst).Nodup) :
    Follow readNamedNote ⟨front⟩ (rest.map fun (name, note) => (name.toList, writeNote note)) ⟨front ++ rest⟩ := by
  induction rest generalizing front with
  | nil =>
    rw [List.append_nil]
    exact .nil _
  | cons pair rest ih =>
    obtain ⟨name, note⟩ := pair
    rw [List.append_cons] at h ⊢
    refine .cons (fun after _ => ?_) (ih h)
    have hfresh : name ∉ front.map Prod.fst := by
      rw [List.map_append, List.map_append] at h
      have hfront := (List.nodup_append.mp (List.nodup_append.mp h).1).2.2
      exact fun hmem => hfront name hmem name List.mem_cons_self rfl
    dsimp only
    rw [writeNote, skipBlanks_writeObject, ← writeNote, readNamedNote, readNote_writeNote]
    simp [InstallRecord.set, setNote_of_not_mem hfresh, String.ofList_toList]

/-- The notes of a record as they are written in it. -/
def writeNotes (record : InstallRecord) : List Char :=
  writeObject [' ', ' '] (record.notes.map fun (name, note) => (name.toList, writeNote note))

theorem readNotes_writeNotes {record : InstallRecord} (h : record.Distinct) (rest : List Char) :
    readNotes (writeNotes record ++ rest) = some (record, rest) := by
  have hmargin : ∀ c ∈ [' ', ' '], Json.isBlank c = true := by simp [Json.isBlank]
  have hfollow : Follow readNamedNote ⟨[]⟩ (record.notes.map fun (name, note) => (name.toList, writeNote note))
      ⟨[] ++ record.notes⟩ := follow_readNamedNote h
  obtain ⟨text, htext, hread⟩ := readMembers_writeObject hmargin hfollow rest
  rw [writeNotes, htext, readNotes]
  exact hread

/-- **A written record is read back**, if it has one note to a name. -/
theorem read?_write {record : InstallRecord} (h : record.Distinct) : read? record.write = some record := by
  have hmargin : ∀ c ∈ ([] : List Char), Json.isBlank c = true := by simp [Json.isBlank]
  have hmember : Takes readRecordMember none ("grammars".toList, writeNotes record) (some record) := by
    intro rest _
    dsimp only
    rw [writeNotes, skipBlanks_writeObject, ← writeNotes, readRecordMember, if_pos rfl, readNotes_writeNotes h]
    rfl
  obtain ⟨text, htext, hread⟩ := readMembers_writeObject hmargin (.cons hmember (.nil _)) []
  have hwrite : record.write.toList = '{' :: text := by
    rw [← htext, write, String.toList_ofList, List.append_nil, writeNotes]
  have hbrace : Json.skipBlanks ('{' :: text) = '{' :: text := Json.skipBlanks_cons_of_not rfl _
  have hrecord : readRecord ('{' :: text) = some (record, []) := by
    rw [readRecord]
    simp only [hread, Option.bind_eq_bind, Option.bind_some, Option.pure_def]
  rw [read?, hwrite, hbrace, hrecord]
  rfl

/-! ## What can be read -/

section

variable {σ : Type} {member : σ → List Char → List Char → Option (σ × List Char)} {property : σ → Prop}
  (hmember : ∀ state name text next rest, property state → member state name text = some (next, rest) →
    property next)
include hmember

/-- What reading each member keeps, reading all of them keeps. -/
theorem of_readMembersFrom {fuel : Nat} {state last : σ} {text after : List Char} (hstate : property state)
    (h : Json.readMembersFrom member fuel state text = some (last, after)) : property last := by
  induction fuel generalizing state text with
  | zero => cases h
  | succ fuel ih =>
    rw [Json.readMembersFrom] at h
    split at h
    · obtain ⟨⟨name, rest⟩, -, h⟩ := Option.bind_eq_some_iff.mp h
      dsimp only at h
      split at h
      · obtain ⟨⟨next, rest⟩, hread, h⟩ := Option.bind_eq_some_iff.mp h
        have hnext := hmember _ _ _ _ _ hstate hread
        dsimp only at h
        split at h
        · cases h
          exact hnext
        · exact ih hnext h
        · cases h
      · cases h
    · cases h

theorem of_readMembers {state last : σ} {text after : List Char} (hstate : property state)
    (h : Json.readMembers member state text = some (last, after)) : property last := by
  unfold Json.readMembers at h
  split at h
  · cases h
    exact hstate
  · exact of_readMembersFrom hmember hstate h

end

theorem distinct_empty : empty.Distinct :=
  List.nodup_nil

theorem distinct_of_readNotes {record : InstallRecord} {text rest : List Char}
    (h : readNotes text = some (record, rest)) : record.Distinct := by
  unfold readNotes at h
  split at h
  · refine of_readMembers (fun state name text next rest hstate hread => ?_) distinct_empty h
    obtain ⟨⟨note, left⟩, -, hread⟩ := Option.bind_eq_some_iff.mp hread
    cases hread
    exact hstate.set _ _
  · cases h

theorem distinct_of_readRecordMember {state next : Option InstallRecord} {name text rest : List Char}
    (hstate : ∀ record, state = some record → record.Distinct)
    (h : readRecordMember state name text = some (next, rest)) : ∀ record, next = some record → record.Distinct := by
  by_cases hname : name = "grammars".toList
  · rw [readRecordMember, if_pos hname] at h
    obtain ⟨-, -, h⟩ := Option.bind_eq_some_iff.mp h
    obtain ⟨⟨record, left⟩, hnotes, h⟩ := Option.bind_eq_some_iff.mp h
    cases h
    rintro _ ⟨⟩
    exact distinct_of_readNotes hnotes
  · rw [readRecordMember, if_neg hname] at h
    obtain ⟨left, -, h⟩ := Option.bind_eq_some_iff.mp h
    cases h
    exact hstate

/-- **A record that was read has one note to a name.** -/
theorem distinct_of_read? {text : String} {record : InstallRecord} (h : read? text = some record) :
    record.Distinct := by
  obtain ⟨⟨read, rest⟩, hread, h⟩ := Option.bind_eq_some_iff.mp h
  obtain ⟨-, -, h⟩ := Option.bind_eq_some_iff.mp h
  cases h
  unfold readRecord at hread
  split at hread
  · obtain ⟨⟨read?, left⟩, hmembers, hread⟩ := Option.bind_eq_some_iff.mp hread
    obtain ⟨_, rfl, hread⟩ := Option.bind_eq_some_iff.mp hread
    cases hread
    have hnone : ∀ record, (none : Option InstallRecord) = some record → record.Distinct := nofun
    exact of_readMembers (fun _ _ _ _ _ => distinct_of_readRecordMember) hnone hmembers _ rfl
  · obtain ⟨⟨notes, left⟩, hnotes, hread⟩ := Option.bind_eq_some_iff.mp hread
    dsimp only at hread
    split at hread
    · cases hread
      exact distinct_of_readNotes hnotes
    · cases hread
  · cases hread

end CodeMarkup.InstallRecord
