import CodeMarkup.Proofs.Install.RecordText
import CodeMarkup.Proofs.Json.Objects
import Mathlib.Data.List.Forall2
import Mathlib.Data.Option.Basic

/-!
# Which texts are records

What a text has to be to be the text of a record (`Document`) is said here by forms, as for JSON texts in general. An
object of fixed members has each of these once, with a value of the right form, and besides them whatever is well
formed; or it is an array of the values in order. The notes have any names, and of two under one name the later counts.

Reading and forms agree: a text is read iff it is the text of a record, and as that record (`read?_eq_some_iff`). So no
text that is not one is read in part.
-/

namespace CodeMarkup.InstallRecord

open Json (Blanks Word WellFormed Member Object Reads EndsWord)

/-! ## Forms -/

/-- Of the members of an object one has a name, and its value is as it should be. -/
def Once (name : List Char) (form : List Char → List Char → Prop) (members : List Member) : Prop :=
  ∃ front member rest, members = front ++ member :: rest ∧ member.name = name ∧ form member.value member.after ∧
    ∀ other ∈ front ++ rest, other.name ≠ name

/-- The members of an object that have other names are well formed. -/
def Ignored (names : List (List Char)) (members : List Member) : Prop :=
  ∀ member ∈ members, member.name ∉ names → WellFormed .value member.value member.after

/-- The name of the member for the interface version. -/
abbrev abiName : List Char := "abi_version".toList

/-- The name of the member for the time of the install. -/
abbrev timeName : List Char := "installed_at".toList

/-- The name of the member for the notes. -/
abbrev notesName : List Char := "grammars".toList

/-- A text starts with a note. -/
inductive NoteText (note : InstallNote) : List Char → List Char → Prop where
  /-- as an object -/
  | object {members : List Member} {text rest : List Char} (hobject : Object members text rest)
      (habi : Once abiName (Word note.abi.toNat) members)
      (htime : Once timeName (Word note.installedAt.toNat) members)
      (hothers : Ignored [abiName, timeName] members) : NoteText note ('{' :: text) rest
  /-- as an array -/
  | array {text abi comma before time close rest : List Char} (hstart : Blanks text abi)
      (habi : Word note.abi.toNat abi comma) (hcomma : Blanks comma (',' :: before)) (hbefore : Blanks before time)
      (htime : Word note.installedAt.toNat time close) (hclose : Blanks close (']' :: rest)) :
    NoteText note ('[' :: text) rest

/-- A member of an object is a note, with a name. -/
def NamedNote (member : Member) (pair : String × InstallNote) : Prop :=
  member.name = pair.1.toList ∧ NoteText pair.2 member.value member.after

/-- The record of notes that are set one after another. -/
def ofNotes (notes : List (String × InstallNote)) : InstallRecord :=
  notes.foldl (fun record pair => record.set pair.1 pair.2) empty

/-- A text starts with the notes of a record. -/
inductive NotesText (record : InstallRecord) : List Char → List Char → Prop where
  /-- as an object -/
  | object {members : List Member} {notes : List (String × InstallNote)} {text rest : List Char}
      (hobject : Object members text rest) (hnotes : List.Forall₂ NamedNote members notes)
      (hrecord : ofNotes notes = record) : NotesText record ('{' :: text) rest

/-- A text starts with a record. -/
inductive RecordText (record : InstallRecord) : List Char → List Char → Prop where
  /-- as an object -/
  | object {members : List Member} {text rest : List Char} (hobject : Object members text rest)
      (hnotes : Once notesName (NotesText record) members) (hothers : Ignored [notesName] members) :
    RecordText record ('{' :: text) rest
  /-- as an array -/
  | array {text notes close rest : List Char} (hstart : Blanks text notes) (hnotes : NotesText record notes close)
      (hclose : Blanks close (']' :: rest)) : RecordText record ('[' :: text) rest

/-- **A text is the text of a record**: it is that and nothing else, blanks aside. -/
def Document (record : InstallRecord) (text : String) : Prop :=
  ∃ start after, Blanks text.toList start ∧ RecordText record start after ∧ Blanks after []

/-! ## Fixed members -/

variable {name text rest : List Char} {form : List Char → List Char → Prop} {member : Member}
  {members : List Member}

theorem not_once_nil : ¬ Once name form [] := by
  rintro ⟨front, member, rest, hmembers, -⟩
  exact List.append_ne_nil_of_right_ne_nil front (List.cons_ne_nil member rest) hmembers.symm

theorem once_cons_of_eq (hname : member.name = name) : Once name form (member :: members) ↔
    form member.value member.after ∧ ∀ other ∈ members, other.name ≠ name := by
  constructor
  · rintro ⟨_ | ⟨first, front⟩, one, rest, hmembers, -, hform, hothers⟩
    · obtain ⟨rfl, rfl⟩ := List.cons.inj hmembers
      exact ⟨hform, hothers⟩
    · obtain ⟨rfl, -⟩ := List.cons.inj hmembers
      exact absurd hname (hothers member List.mem_cons_self)
  · rintro ⟨hform, hothers⟩
    exact ⟨[], member, members, rfl, hname, hform, hothers⟩

theorem once_cons_of_ne (hname : member.name ≠ name) :
    Once name form (member :: members) ↔ Once name form members := by
  constructor
  · rintro ⟨_ | ⟨first, front⟩, one, rest, hmembers, hone, hform, hothers⟩
    · obtain ⟨rfl, -⟩ := List.cons.inj hmembers
      exact absurd hone hname
    · obtain ⟨rfl, rfl⟩ := List.cons.inj hmembers
      exact ⟨front, one, rest, rfl, hone, hform, (List.forall_mem_cons.mp hothers).2⟩
  · rintro ⟨front, one, rest, rfl, hone, hform, hothers⟩
    exact ⟨member :: front, one, rest, rfl, hone, hform, List.forall_mem_cons.mpr ⟨hname, hothers⟩⟩

/-- **What reading members does to what is known of a fixed one**: it is there once and becomes known, and was not
before, or it is not there. -/
def Field {α : Type} (name : List Char) (form : α → List Char → List Char → Prop) (members : List Member)
    (old new : Option α) : Prop :=
  (new = old ∧ ∀ member ∈ members, member.name ≠ name) ∨
    (old = none ∧ ∃ value, new = some value ∧ Once name (form value) members)

section

variable {α : Type} {form : α → List Char → List Char → Prop} {old new : Option α}

theorem field_nil : Field name form [] old new ↔ new = old := by
  constructor
  · rintro (⟨hsame, -⟩ | ⟨-, value, -, honce⟩)
    · exact hsame
    · exact absurd honce not_once_nil
  · exact fun hsame => Or.inl ⟨hsame, nofun⟩

/-- A member of the name is read when nothing is known yet, and makes its value known. -/
theorem field_cons_of_eq (hname : member.name = name) : Field name form (member :: members) old new ↔
    old = none ∧ ∃ value, form value member.value member.after ∧ Field name form members (some value) new := by
  constructor
  · rintro (⟨-, hnone⟩ | ⟨hold, value, hnew, honce⟩)
    · exact absurd hname (hnone member List.mem_cons_self)
    · obtain ⟨hform, hothers⟩ := (once_cons_of_eq hname).mp honce
      exact ⟨hold, value, hform, Or.inl ⟨hnew, hothers⟩⟩
  · rintro ⟨hold, value, hform, ⟨hnew, hothers⟩ | ⟨hnone, -⟩⟩
    · exact Or.inr ⟨hold, value, hnew, (once_cons_of_eq hname).mpr ⟨hform, hothers⟩⟩
    · cases hnone

theorem field_cons_of_ne (hname : member.name ≠ name) :
    Field name form (member :: members) old new ↔ Field name form members old new := by
  simp only [Field, once_cons_of_ne hname, List.forall_mem_cons, and_iff_right hname]

/-- A member that is known at the end and was not at the start is there once. -/
theorem field_none_some {value : α} : Field name form members none (some value) ↔ Once name (form value) members := by
  constructor
  · rintro (⟨hnew, -⟩ | ⟨-, other, hsame, honce⟩)
    · cases hnew
    · exact Option.some.inj hsame ▸ honce
  · exact fun honce => Or.inr ⟨rfl, value, rfl, honce⟩

end

theorem ignored_cons {names : List (List Char)} : Ignored names (member :: members) ↔
    (member.name ∉ names → WellFormed .value member.value member.after) ∧ Ignored names members :=
  List.forall_mem_cons

/-! ## Notes -/

/-- A number that is an interface version or a time stands in the text, and is not too large. -/
def WordUpTo (limit value : Nat) (text rest : List Char) : Prop :=
  Word value text rest ∧ value ≤ limit

/-- A fixed member is read when nothing is known of it yet. -/
theorem readField_iff {α β σ : Type} {old : Option α} {read : Option (β × List Char)} {next : σ}
    (known : β → σ) :
    (do guard (old.isNone = true); let (value, rest) ← read; return (known value, rest)) = some (next, rest) ↔
      old = none ∧ ∃ value, read = some (value, rest) ∧ known value = next := by
  rcases old with _ | found
  · have hfree : (guard ((none : Option α).isNone = true) : Option Unit) = some () := rfl
    rw [hfree]
    rcases read with _ | ⟨value, left⟩
    · simp
    · simp [and_comm]
  · have htaken : (guard ((some found).isNone = true) : Option Unit) = none := rfl
    rw [htaken]
    simp

section

variable {state next last : PartialNote}

theorem readNoteMember_abi : readNoteMember state abiName text = some (next, rest) ↔ state.abi = none ∧
    ∃ value, Json.readWordUpTo abiLimit text = some (value, rest) ∧ { state with abi := some value } = next := by
  rw [readNoteMember, if_pos rfl]
  exact readField_iff fun value => { state with abi := some value }

theorem readNoteMember_time : readNoteMember state timeName text = some (next, rest) ↔ state.installedAt = none ∧
    ∃ value, Json.readWordUpTo timeLimit text = some (value, rest) ∧
      { state with installedAt := some value } = next := by
  rw [readNoteMember, if_neg (by decide), if_pos rfl]
  exact readField_iff fun value => { state with installedAt := some value }

theorem readNoteMember_other (habi : name ≠ abiName) (htime : name ≠ timeName) :
    readNoteMember state name text = some (next, rest) ↔ Json.skip text = some rest ∧ state = next := by
  rw [readNoteMember, if_neg habi, if_neg htime]
  rcases Json.skip text with _ | left
  · simp
  · simp [and_comm]

/-- Reading the members of a note. -/
theorem reads_readNoteMember_iff (hends : ∀ member ∈ members, EndsWord member.after) :
    Reads readNoteMember state members last ↔
      Field abiName (WordUpTo abiLimit) members state.abi last.abi ∧
      Field timeName (WordUpTo timeLimit) members state.installedAt last.installedAt ∧
      Ignored [abiName, timeName] members := by
  have hne : abiName ≠ timeName := by decide
  induction members generalizing state with
  | nil =>
    obtain ⟨abi, installedAt⟩ := state
    obtain ⟨abi', installedAt'⟩ := last
    simp only [Json.reads_nil_iff, field_nil, Ignored, List.not_mem_nil, false_imp_iff, implies_true, and_true,
      PartialNote.mk.injEq]
  | cons member members ih =>
    obtain ⟨hend, hends⟩ := List.forall_mem_cons.mp hends
    rw [Json.reads_cons_iff, ignored_cons]
    by_cases habi : member.name = abiName
    · rw [field_cons_of_eq habi, field_cons_of_ne (habi ▸ hne), habi]
      constructor
      · rintro ⟨-, next, hread, hrest⟩
        obtain ⟨hnone, value, hword, rfl⟩ := readNoteMember_abi.mp hread
        obtain ⟨hone, hother, hignored⟩ := (ih hends).mp hrest
        exact ⟨⟨hnone, value, (Json.readWordUpTo_eq_some_iff hend).mp hword, hone⟩, hother,
          fun h => absurd List.mem_cons_self h, hignored⟩
      · rintro ⟨⟨hnone, value, hword, hone⟩, hother, -, hignored⟩
        exact ⟨hword.1.skipBlanks, _, readNoteMember_abi.mpr ⟨hnone, value,
          (Json.readWordUpTo_eq_some_iff hend).mpr hword, rfl⟩, (ih hends).mpr ⟨hone, hother, hignored⟩⟩
    · by_cases htime : member.name = timeName
      · rw [field_cons_of_ne habi, field_cons_of_eq htime, htime]
        constructor
        · rintro ⟨-, next, hread, hrest⟩
          obtain ⟨hnone, value, hword, rfl⟩ := readNoteMember_time.mp hread
          obtain ⟨hother, hone, hignored⟩ := (ih hends).mp hrest
          exact ⟨hother, ⟨hnone, value, (Json.readWordUpTo_eq_some_iff hend).mp hword, hone⟩,
            fun h => absurd (List.mem_cons_of_mem _ List.mem_cons_self) h, hignored⟩
        · rintro ⟨hother, ⟨hnone, value, hword, hone⟩, -, hignored⟩
          exact ⟨hword.1.skipBlanks, _, readNoteMember_time.mpr ⟨hnone, value,
            (Json.readWordUpTo_eq_some_iff hend).mpr hword, rfl⟩, (ih hends).mpr ⟨hother, hone, hignored⟩⟩
      · have hnot : member.name ∉ [abiName, timeName] := by simp [habi, htime]
        rw [field_cons_of_ne habi, field_cons_of_ne htime]
        constructor
        · rintro ⟨hstart, next, hread, hrest⟩
          obtain ⟨hskip, rfl⟩ := (readNoteMember_other habi htime).mp hread
          obtain ⟨hone, hother, hignored⟩ := (ih hends).mp hrest
          exact ⟨hone, hother, fun _ => (Json.skip_eq_some_iff hstart hend).mp hskip, hignored⟩
        · rintro ⟨hone, hother, hvalue, hignored⟩
          have hstart := (hvalue hnot).skipBlanks
          exact ⟨hstart, _, (readNoteMember_other habi htime).mpr
            ⟨(Json.skip_eq_some_iff hstart hend).mpr (hvalue hnot), rfl⟩, (ih hends).mpr ⟨hone, hother, hignored⟩⟩

theorem shortens_readNoteMember : Json.Shortens readNoteMember := by
  intro state next name text rest h
  by_cases habi : name = abiName
  · obtain ⟨-, value, hword, -⟩ := readNoteMember_abi.mp (habi ▸ h)
    exact Json.length_of_readWordUpTo hword
  · by_cases htime : name = timeName
    · obtain ⟨-, value, hword, -⟩ := readNoteMember_time.mp (htime ▸ h)
      exact Json.length_of_readWordUpTo hword
    · exact Json.length_of_skip ((readNoteMember_other habi htime).mp h).1

end

theorem once_wordUpTo {limit value : Nat} :
    Once name (WordUpTo limit value) members ↔ Once name (Word value) members ∧ value ≤ limit := by
  constructor
  · rintro ⟨front, member, rest, hmembers, hname, ⟨hword, hlimit⟩, hothers⟩
    exact ⟨⟨front, member, rest, hmembers, hname, hword, hothers⟩, hlimit⟩
  · rintro ⟨⟨front, member, rest, hmembers, hname, hword, hothers⟩, hlimit⟩
    exact ⟨front, member, rest, hmembers, hname, ⟨hword, hlimit⟩, hothers⟩

variable {note : InstallNote} {abi time : Nat}

theorem toNat_ofNat_abi (h : abi ≤ abiLimit) : (UInt32.ofNat abi).toNat = abi :=
  UInt32.toNat_ofNat_of_lt' (Nat.lt_of_le_pred (by decide) h)

theorem toNat_ofNat_time (h : time ≤ timeLimit) : (UInt64.ofNat time).toNat = time :=
  UInt64.toNat_ofNat_of_lt' (Nat.lt_of_le_pred (by decide) h)

/-- The members of a note that stands in the text are read. -/
theorem readMembers_of_note (hobject : Object members text rest) (habi : Once abiName (Word note.abi.toNat) members)
    (htime : Once timeName (Word note.installedAt.toNat) members) (hothers : Ignored [abiName, timeName] members) :
    Json.readMembers readNoteMember ⟨none, none⟩ text
      = some (⟨some note.abi.toNat, some note.installedAt.toNat⟩, rest) := by
  have hreads : Reads readNoteMember ⟨none, none⟩ members ⟨some note.abi.toNat, some note.installedAt.toNat⟩ :=
    (reads_readNoteMember_iff hobject.endsWord).mpr ⟨field_none_some.mpr (once_wordUpTo.mpr ⟨habi, abi_le note⟩),
      field_none_some.mpr (once_wordUpTo.mpr ⟨htime, installedAt_le note⟩), hothers⟩
  exact (Json.readMembers_eq_some_iff shortens_readNoteMember).mpr ⟨members, hobject, hreads⟩

/-- **A note is read iff the text starts with it.** -/
theorem readNote_eq_some_iff : readNote text = some (note, rest) ↔ NoteText note text rest := by
  constructor
  · intro h
    unfold readNote at h
    split at h
    · obtain ⟨⟨last, left⟩, hmembers, h⟩ := Option.bind_eq_some_iff.mp h
      obtain ⟨abi, habi, h⟩ := Option.bind_eq_some_iff.mp h
      obtain ⟨time, htime, h⟩ := Option.bind_eq_some_iff.mp h
      obtain ⟨rfl, rfl⟩ := Prod.mk.inj (Option.some.inj h)
      obtain ⟨members, hobject, hreads⟩ := (Json.readMembers_eq_some_iff shortens_readNoteMember).mp hmembers
      rw [reads_readNoteMember_iff hobject.endsWord, habi, htime, field_none_some, field_none_some, once_wordUpTo,
        once_wordUpTo] at hreads
      obtain ⟨⟨habi, habilimit⟩, ⟨htime, htimelimit⟩, hothers⟩ := hreads
      refine .object hobject ?_ ?_ hothers
      · rwa [toNat_ofNat_abi habilimit]
      · rwa [toNat_ofNat_time htimelimit]
    · rename_i inside
      obtain ⟨⟨abi, comma⟩, habi, h⟩ := Option.bind_eq_some_iff.mp h
      have hstart := Json.blanks_skipBlanks inside
      dsimp only at h
      split at h
      · rename_i before hcomma
        obtain ⟨⟨time, close⟩, htime, h⟩ := Option.bind_eq_some_iff.mp h
        have hbefore := Json.blanks_skipBlanks before
        dsimp only at h
        split at h
        · rename_i hclose
          obtain ⟨rfl, rfl⟩ := Prod.mk.inj (Option.some.inj h)
          have hcomma := Json.blanks_of_skipBlanks hcomma
          have hclose := Json.blanks_of_skipBlanks hclose
          obtain ⟨habi, habilimit⟩ := (Json.readWordUpTo_eq_some_iff (hcomma.endsWord (by decide))).mp habi
          obtain ⟨htime, htimelimit⟩ := (Json.readWordUpTo_eq_some_iff (hclose.endsWord (by decide))).mp htime
          refine .array hstart ?_ hcomma hbefore ?_ hclose
          · rwa [toNat_ofNat_abi habilimit]
          · rwa [toNat_ofNat_time htimelimit]
        · cases h
      · cases h
    · cases h
  · intro h
    cases h with
    | object hobject habi htime hothers =>
      have hmembers := readMembers_of_note hobject habi htime hothers
      rw [readNote]
      simp [hmembers]
    | array hstart habi hcomma hbefore htime hclose =>
      have habi' := (Json.readWordUpTo_eq_some_iff (hcomma.endsWord (by decide))).mpr ⟨habi, abi_le note⟩
      have htime' := (Json.readWordUpTo_eq_some_iff (hclose.endsWord (by decide))).mpr ⟨htime, installedAt_le note⟩
      rw [readNote]
      simp [hstart.skip habi.skipBlanks, habi', (Json.skipBlanks_eq_cons_iff rfl).mpr hcomma,
        hbefore.skip htime.skipBlanks, htime', (Json.skipBlanks_eq_cons_iff rfl).mpr hclose]

theorem NoteText.skipBlanks (h : NoteText note text rest) : Json.skipBlanks text = text := by
  cases h with
  | object | array => exact Json.skipBlanks_cons_of_not rfl _

theorem NoteText.length_le (h : NoteText note text rest) : rest.length ≤ text.length := by
  cases h with
  | object hobject habi htime hothers =>
    exact Nat.le_succ_of_le (Json.length_of_readMembers shortens_readNoteMember
      (readMembers_of_note hobject habi htime hothers))
  | array hstart habi hcomma hbefore htime hclose =>
    have hstart := hstart.length_le
    have habi := habi.length_lt
    have hcomma := hcomma.length_le
    have hbefore := hbefore.length_le
    have htime := htime.length_lt
    have hclose := hclose.length_le
    simp only [List.length_cons] at hcomma hclose ⊢
    omega

/-! ## The notes of a record -/

section

variable {record next last : InstallRecord}

theorem readNamedNote_iff : readNamedNote record name text = some (next, rest) ↔
    ∃ note, NoteText note text rest ∧ record.set (String.ofList name) note = next := by
  simp only [← readNote_eq_some_iff]
  rw [readNamedNote]
  rcases readNote text with _ | ⟨note, left⟩
  · simp
  · simp [and_comm]

/-- Reading the notes of a record sets them one after another. -/
theorem reads_readNamedNote_iff : Reads readNamedNote record members last ↔
    ∃ notes, List.Forall₂ NamedNote members notes ∧
      notes.foldl (fun record pair => record.set pair.1 pair.2) record = last := by
  induction members generalizing record with
  | nil =>
    rw [Json.reads_nil_iff]
    constructor
    · rintro rfl
      exact ⟨[], .nil, rfl⟩
    · rintro ⟨_, ⟨⟩, rfl⟩
      rfl
  | cons member members ih =>
    rw [Json.reads_cons_iff]
    constructor
    · rintro ⟨-, next, hread, hrest⟩
      obtain ⟨note, hnote, rfl⟩ := readNamedNote_iff.mp hread
      obtain ⟨notes, hnotes, rfl⟩ := ih.mp hrest
      exact ⟨(String.ofList member.name, note) :: notes, .cons ⟨String.toList_ofList.symm, hnote⟩ hnotes, rfl⟩
    · rintro ⟨_, _ | ⟨⟨hname, hnote⟩, hnotes⟩, rfl⟩
      refine ⟨hnote.skipBlanks, _, readNamedNote_iff.mpr ⟨_, hnote, rfl⟩, ih.mpr ⟨_, hnotes, ?_⟩⟩
      rw [hname, String.ofList_toList, List.foldl_cons]

theorem shortens_readNamedNote : Json.Shortens readNamedNote := by
  intro record next name text rest h
  obtain ⟨note, hnote, -⟩ := readNamedNote_iff.mp h
  exact hnote.length_le

/-- **The notes of a record are read iff the text starts with them.** -/
theorem readNotes_eq_some_iff : readNotes text = some (record, rest) ↔ NotesText record text rest := by
  constructor
  · intro h
    unfold readNotes at h
    split at h
    · obtain ⟨members, hobject, hreads⟩ := (Json.readMembers_eq_some_iff shortens_readNamedNote).mp h
      obtain ⟨notes, hnotes, hrecord⟩ := reads_readNamedNote_iff.mp hreads
      exact .object hobject hnotes hrecord
    · cases h
  · rintro ⟨hobject, hnotes, hrecord⟩
    exact (Json.readMembers_eq_some_iff shortens_readNamedNote).mpr
      ⟨_, hobject, reads_readNamedNote_iff.mpr ⟨_, hnotes, hrecord⟩⟩

theorem NotesText.skipBlanks (h : NotesText record text rest) : Json.skipBlanks text = text := by
  cases h with
  | object => exact Json.skipBlanks_cons_of_not rfl _

theorem NotesText.length_le (h : NotesText record text rest) : rest.length ≤ text.length := by
  cases h with
  | object hobject hnotes hrecord =>
    have hreads := reads_readNamedNote_iff.mpr ⟨_, hnotes, hrecord⟩
    exact Nat.le_succ_of_le (Json.length_of_readMembers shortens_readNamedNote
      ((Json.readMembers_eq_some_iff shortens_readNamedNote).mpr ⟨_, hobject, hreads⟩))

end

/-! ## Records -/

section

variable {state next last : Option InstallRecord} {record : InstallRecord}

theorem readRecordMember_notes : readRecordMember state notesName text = some (next, rest) ↔ state = none ∧
    ∃ record, NotesText record text rest ∧ some record = next := by
  simp only [← readNotes_eq_some_iff]
  rw [readRecordMember, if_pos rfl]
  exact readField_iff some

theorem readRecordMember_other (hname : name ≠ notesName) :
    readRecordMember state name text = some (next, rest) ↔ Json.skip text = some rest ∧ state = next := by
  rw [readRecordMember, if_neg hname]
  rcases Json.skip text with _ | left
  · simp
  · simp [and_comm]

/-- Reading the members of a record. -/
theorem reads_readRecordMember_iff (hends : ∀ member ∈ members, EndsWord member.after) :
    Reads readRecordMember state members last ↔
      Field notesName NotesText members state last ∧ Ignored [notesName] members := by
  induction members generalizing state with
  | nil => simp only [Json.reads_nil_iff, field_nil, Ignored, List.not_mem_nil, false_imp_iff, implies_true, and_true]
  | cons member members ih =>
    obtain ⟨hend, hends⟩ := List.forall_mem_cons.mp hends
    rw [Json.reads_cons_iff, ignored_cons]
    by_cases hname : member.name = notesName
    · rw [field_cons_of_eq hname, hname]
      constructor
      · rintro ⟨-, next, hread, hrest⟩
        obtain ⟨hnone, record, hnotes, rfl⟩ := readRecordMember_notes.mp hread
        obtain ⟨hone, hignored⟩ := (ih hends).mp hrest
        exact ⟨⟨hnone, record, hnotes, hone⟩, fun h => absurd List.mem_cons_self h, hignored⟩
      · rintro ⟨⟨hnone, record, hnotes, hone⟩, -, hignored⟩
        exact ⟨hnotes.skipBlanks, _, readRecordMember_notes.mpr ⟨hnone, record, hnotes, rfl⟩,
          (ih hends).mpr ⟨hone, hignored⟩⟩
    · have hnot : member.name ∉ [notesName] := by simp [hname]
      rw [field_cons_of_ne hname]
      constructor
      · rintro ⟨hstart, next, hread, hrest⟩
        obtain ⟨hskip, rfl⟩ := (readRecordMember_other hname).mp hread
        obtain ⟨hone, hignored⟩ := (ih hends).mp hrest
        exact ⟨hone, fun _ => (Json.skip_eq_some_iff hstart hend).mp hskip, hignored⟩
      · rintro ⟨hone, hvalue, hignored⟩
        have hstart := (hvalue hnot).skipBlanks
        exact ⟨hstart, _, (readRecordMember_other hname).mpr
          ⟨(Json.skip_eq_some_iff hstart hend).mpr (hvalue hnot), rfl⟩, (ih hends).mpr ⟨hone, hignored⟩⟩

theorem shortens_readRecordMember : Json.Shortens readRecordMember := by
  intro state next name text rest h
  by_cases hname : name = notesName
  · obtain ⟨-, record, hnotes, -⟩ := readRecordMember_notes.mp (hname ▸ h)
    exact hnotes.length_le
  · exact Json.length_of_skip ((readRecordMember_other hname).mp h).1

/-- **A record is read iff the text starts with it.** -/
theorem readRecord_eq_some_iff : readRecord text = some (record, rest) ↔ RecordText record text rest := by
  constructor
  · intro h
    unfold readRecord at h
    split at h
    · obtain ⟨⟨last, left⟩, hmembers, h⟩ := Option.bind_eq_some_iff.mp h
      obtain ⟨found, hfound, h⟩ := Option.bind_eq_some_iff.mp h
      obtain ⟨rfl, rfl⟩ := Prod.mk.inj (Option.some.inj h)
      obtain ⟨members, hobject, hreads⟩ := (Json.readMembers_eq_some_iff shortens_readRecordMember).mp hmembers
      obtain rfl : last = some found := hfound
      rw [reads_readRecordMember_iff hobject.endsWord, field_none_some] at hreads
      exact .object hobject hreads.1 hreads.2
    · rename_i inside
      obtain ⟨⟨found, close⟩, hnotes, h⟩ := Option.bind_eq_some_iff.mp h
      have hstart := Json.blanks_skipBlanks inside
      dsimp only at h
      split at h
      · rename_i hclose
        obtain ⟨rfl, rfl⟩ := Prod.mk.inj (Option.some.inj h)
        exact .array hstart (readNotes_eq_some_iff.mp hnotes) (Json.blanks_of_skipBlanks hclose)
      · cases h
    · cases h
  · intro h
    cases h with
    | object hobject hnotes hothers =>
      have hreads := (reads_readRecordMember_iff hobject.endsWord).mpr ⟨field_none_some.mpr hnotes, hothers⟩
      have hmembers := (Json.readMembers_eq_some_iff shortens_readRecordMember).mpr ⟨_, hobject, hreads⟩
      rw [readRecord]
      simp [hmembers]
    | array hstart hnotes hclose =>
      rw [readRecord]
      simp [hstart.skip hnotes.skipBlanks, readNotes_eq_some_iff.mpr hnotes,
        (Json.skipBlanks_eq_cons_iff rfl).mpr hclose]

theorem RecordText.skipBlanks (h : RecordText record text rest) : Json.skipBlanks text = text := by
  cases h with
  | object | array => exact Json.skipBlanks_cons_of_not rfl _

/-- **A text is read iff it is the text of a record**, and as that record. -/
theorem read?_eq_some_iff {text : String} : read? text = some record ↔ Document record text := by
  constructor
  · intro h
    obtain ⟨⟨found, after⟩, hread, h⟩ := Option.bind_eq_some_iff.mp h
    obtain ⟨⟨⟩, hguard, h⟩ := Option.bind_eq_some_iff.mp h
    obtain rfl := Option.some.inj h
    have hend : Json.skipBlanks after = [] := List.isEmpty_iff.mp ((Option.guard_eq_some' ⟨⟩).mp hguard)
    exact ⟨_, after, Json.blanks_skipBlanks _, readRecord_eq_some_iff.mp hread, Json.blanks_of_skipBlanks hend⟩
  · rintro ⟨start, after, hstart, hrecord, hafter⟩
    have hend : (guard ((Json.skipBlanks after).isEmpty = true) : Option Unit) = some () :=
      (Option.guard_eq_some' ⟨⟩).mpr (List.isEmpty_iff.mpr (hafter.skip rfl))
    rw [read?, hstart.skip hrecord.skipBlanks, readRecord_eq_some_iff.mpr hrecord]
    change (guard ((Json.skipBlanks after).isEmpty = true) >>= fun _ => some record) = some record
    rw [hend]
    rfl

end

end CodeMarkup.InstallRecord
