import CodeMarkup.Install.Record
import CodeMarkup.Json.Basic

/-!
# The file of an install record

A record is kept as a JSON text: an object with one member, the notes by grammar name, and each note an
object of two numbers. Reading is a little freer than writing. An object of fixed members may also be
an array of their values in order; members that mean nothing here are skipped; and of two notes under
one name the later counts. But a fixed member may be neither missing nor double, and anything else that
is not as it should be makes the whole text unreadable: there is no reading of a part.
-/

namespace CodeMarkup.InstallRecord

/-! ## Writing -/

/-- Lines of members between braces, set in by two blanks more than the braces. -/
def writeObject (margin : List Char) (members : List (List Char × List Char)) : List Char :=
  match members with
  | [] => ['{', '}']
  | first :: rest =>
    let inner := '\n' :: ' ' :: ' ' :: margin
    let member := fun (name, value) => inner ++ Json.writeString name ++ [':', ' '] ++ value
    ['{'] ++ member first ++ rest.flatMap (fun pair => ',' :: member pair)
      ++ '\n' :: margin ++ ['}']

/-- A note as JSON, where it stands in a record. -/
def writeNote (note : InstallNote) : List Char :=
  writeObject [' ', ' ', ' ', ' ']
    [("abi_version".toList, Text.decimal note.abi.toNat),
      ("installed_at".toList, Text.decimal note.installedAt.toNat)]

/-- A record as JSON. -/
def write (record : InstallRecord) : String :=
  String.ofList <| writeObject [] [("grammars".toList,
    writeObject [' ', ' '] (record.notes.map fun (name, note) => (name.toList, writeNote note)))]

/-! ## Reading -/

/-- The members of a note read so far. -/
structure PartialNote where
  /-- the interface version, once read -/
  abi : Option Nat
  /-- the time of the install, once read -/
  installedAt : Option Nat

/-- The limit of an interface version. -/
def abiLimit : Nat := UInt32.size - 1

/-- The limit of a time. -/
def timeLimit : Nat := UInt64.size - 1

/-- One member of a note. -/
def readNoteMember (note : PartialNote) (name text : List Char) :
    Option (PartialNote × List Char) :=
  if name = "abi_version".toList then do
    guard note.abi.isNone
    let (value, rest) ← Json.readWordUpTo abiLimit text
    return ({ note with abi := some value }, rest)
  else if name = "installed_at".toList then do
    guard note.installedAt.isNone
    let (value, rest) ← Json.readWordUpTo timeLimit text
    return ({ note with installedAt := some value }, rest)
  else do
    let rest ← Json.skip text
    return (note, rest)

/-- A note. -/
def readNote (text : List Char) : Option (InstallNote × List Char) := do
  match text with
  | '{' :: rest =>
    let (note, rest) ← Json.readMembers readNoteMember ⟨none, none⟩ rest
    return (⟨UInt32.ofNat (← note.abi), UInt64.ofNat (← note.installedAt)⟩, rest)
  | '[' :: rest =>
    let (abi, rest) ← Json.readWordUpTo abiLimit (Json.skipBlanks rest)
    match Json.skipBlanks rest with
    | ',' :: rest =>
      let (installedAt, rest) ← Json.readWordUpTo timeLimit (Json.skipBlanks rest)
      match Json.skipBlanks rest with
      | ']' :: rest => return (⟨UInt32.ofNat abi, UInt64.ofNat installedAt⟩, rest)
      | _ => none
    | _ => none
  | _ => none

/-- One note of a record, by its grammar's name. -/
def readNamedNote (record : InstallRecord) (name text : List Char) :
    Option (InstallRecord × List Char) := do
  let (note, rest) ← readNote text
  return (record.set (String.ofList name) note, rest)

/-- The notes of a record. -/
def readNotes (text : List Char) : Option (InstallRecord × List Char) :=
  match text with
  | '{' :: rest => Json.readMembers readNamedNote empty rest
  | _ => none

/-- One member of a record. -/
def readRecordMember (record : Option InstallRecord) (name text : List Char) :
    Option (Option InstallRecord × List Char) :=
  if name = "grammars".toList then do
    guard record.isNone
    let (record, rest) ← readNotes text
    return (some record, rest)
  else do
    let rest ← Json.skip text
    return (record, rest)

/-- A record. -/
def readRecord (text : List Char) : Option (InstallRecord × List Char) := do
  match text with
  | '{' :: rest =>
    let (record, rest) ← Json.readMembers readRecordMember none rest
    return (← record, rest)
  | '[' :: rest =>
    let (record, rest) ← readNotes (Json.skipBlanks rest)
    match Json.skipBlanks rest with
    | ']' :: rest => return (record, rest)
    | _ => none
  | _ => none

/-- The record that a text writes, if it writes one and nothing after it. -/
def read? (text : String) : Option InstallRecord := do
  let (record, rest) ← readRecord (Json.skipBlanks text.toList)
  guard (Json.skipBlanks rest).isEmpty
  return record

end CodeMarkup.InstallRecord
