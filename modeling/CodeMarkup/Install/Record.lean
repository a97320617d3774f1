import CodeMarkup.Grammar.Basic

/-!
# Install records

Beside the compiled grammars lies a record of how each was made: the interface version it was compiled
for and when. A grammar whose recorded version is not today's has to be made again; one that is not on
record may be anything and is left alone.
-/

namespace CodeMarkup

/-- How one grammar was installed. -/
structure InstallNote where
  /-- the interface version it was compiled for -/
  abi : UInt32
  /-- when it was installed, in seconds -/
  installedAt : UInt64
  deriving DecidableEq, Repr

/-- The notes on all installed grammars, one to a name. -/
structure InstallRecord where
  /-- the notes by grammar name -/
  notes : List (String × InstallNote)
  deriving DecidableEq, Repr

namespace InstallRecord

/-- The record of no install. -/
def empty : InstallRecord := ⟨[]⟩

instance : Inhabited InstallRecord := ⟨empty⟩

/-- The note on a grammar. -/
def note? (record : InstallRecord) (name : String) : Option InstallNote :=
  record.notes.lookup name

/-- Pairs with the note of one name set, in its old position if it has one. -/
def setNote (name : String) (note : InstallNote) :
    List (String × InstallNote) → List (String × InstallNote)
  | [] => [(name, note)]
  | (other, old) :: rest =>
    if other = name then (name, note) :: rest else (other, old) :: setNote name note rest

/-- The record with the note on a grammar set. -/
def set (record : InstallRecord) (name : String) (note : InstallNote) : InstallRecord :=
  ⟨setNote name note record.notes⟩

/-- The note on a grammar installed now. -/
def freshNote (now : Nat) : InstallNote :=
  ⟨UInt32.ofNat Grammar.currentAbi, UInt64.ofNat now⟩

/-- The record with a grammar installed now. -/
def recordInstall (record : InstallRecord) (name : String) (now : Nat) : InstallRecord :=
  record.set name (freshNote now)

/-- Whether a grammar is on record. -/
def isInstalled (record : InstallRecord) (name : String) : Bool :=
  (record.note? name).isSome

/-- Whether a grammar was compiled for another interface version than today's. -/
def isOutdated (record : InstallRecord) (name : String) : Bool :=
  match record.note? name with
  | some note => note.abi.toNat ≠ Grammar.currentAbi
  | none => false

/-- Setting a note changes that name's note and no other. -/
theorem note?_set (record : InstallRecord) (name other : String) (note : InstallNote) :
    (record.set name note).note? other
      = if other = name then some note else record.note? other := by
  have miss : ∀ {a b : String}, a ≠ b → (a == b) = false := fun h => by simpa using h
  obtain ⟨notes⟩ := record
  simp only [note?, set]
  induction notes with
  | nil => by_cases h : other = name <;> simp [setNote, List.lookup_nil, List.lookup_cons, h, miss]
  | cons pair rest ih =>
    obtain ⟨first, old⟩ := pair
    unfold setNote
    split
    · rename_i heq
      subst heq
      by_cases h : other = first <;> simp [List.lookup_cons, h, miss]
    · rename_i hne
      by_cases h : other = first
      · subst h
        simp [hne]
      · simp [List.lookup_cons, miss h, ih]

/-- A grammar installed now is not outdated. -/
theorem isOutdated_recordInstall_self (record : InstallRecord) (name : String) (now : Nat) :
    (record.recordInstall name now).isOutdated name = false := by
  simp [isOutdated, recordInstall, note?_set, freshNote, Grammar.currentAbi]

end InstallRecord

end CodeMarkup
