import CodeMarkup.CommandLine.Arguments

/-!
# Reading a command line

Arguments are read from left to right. Long names begin with two dashes and take a value after an equals
sign or as the next argument. Short names begin with one dash, several may share it, and one that takes a
value takes what is left of the argument, without an equals sign in front, or the next argument. A next
argument is a value unless it begins with a dash and is longer than that. After two dashes by themselves
everything is a file.

A value that came as an argument of its own is looked at only when the next option, flag or file is
recognised, or at the end. So something that means nothing is reported before a bad value in front of it,
while between two things that mean something the first that is wrong is reported.
-/

namespace CodeMarkup.CommandLine

/-- How far a command line has been read. -/
structure Reading where
  /-- what was said so far -/
  taken : Arguments
  /-- what was said last and not looked at yet, with its value once that is there -/
  pending : Option (Slot × Option String)
  /-- whether everything is a file from here on -/
  onlyFiles : Bool

/-- Before anything was read. -/
def Reading.fresh : Reading := ⟨.none, none, false⟩

/-! ## Values -/

/-- Whether something was said already. -/
def isTaken (taken : Arguments) : Slot → Bool
  | .file => taken.file.isSome
  | .option .language => taken.language.isSome
  | .option .highlight => taken.lines.isSome
  | .option .theme => taken.theme.isSome
  | .option .config => taken.config.isSome

/-- A value that is a path, and so is not empty. -/
def pathValue (slot : Slot) (value : String) : Except UsageFault (Option String) :=
  if value = "" then .error (.noValue slot) else .ok (some value)

/-- Takes a value. -/
def take (taken : Arguments) (slot : Slot) (value : String) : Except UsageFault Arguments := do
  if isTaken taken slot then throw (.repeated slot.describe)
  match slot with
  | .file => return { taken with file := ← pathValue slot value }
  | .option .config => return { taken with config := ← pathValue slot value }
  | .option .language => return { taken with language := some value }
  | .option .theme => return { taken with theme := some value }
  | .option .highlight =>
    match LineSet.ofSpec value with
    | .ok lines => return { taken with lines := some lines }
    | .error fault => throw (.badLines value fault)

/-- Takes a flag. -/
def takeFlag (taken : Arguments) (flag : Flag) : Except UsageFault Arguments :=
  match flag with
  | .dark => if taken.dark then .error (.repeated flag.name) else .ok { taken with dark := true }
  | .noInstall =>
    if taken.noInstall then .error (.repeated flag.name) else .ok { taken with noInstall := true }
  | .listLanguages =>
    if taken.listLanguages then .error (.repeated flag.name)
    else .ok { taken with listLanguages := true }

namespace Reading

/-- Looks at what was said last. -/
def settle (reading : Reading) : Except UsageFault Reading :=
  match reading.pending with
  | none => .ok reading
  | some (slot, none) => .error (.noValue slot)
  | some (slot, some value) => do
    let taken ← take reading.taken slot value
    return { reading with taken := taken, pending := none }

/-- Whether a file was given already. -/
def hasFile (reading : Reading) : Bool :=
  reading.taken.file.isSome || reading.pending.any (·.1 = .file)

/-- Reads an option, with the value that is attached to it, if one is. -/
def readOption (reading : Reading) (option : ValueOption) (attached : Option String) :
    Except UsageFault Reading := do
  let reading ← reading.settle
  match attached with
  | some value => return { reading with taken := ← take reading.taken (.option option) value }
  | none => return { reading with pending := some (.option option, none) }

/-- Reads a flag. -/
def readFlag (reading : Reading) (flag : Flag) : Except UsageFault Reading := do
  let reading ← reading.settle
  return { reading with taken := ← takeFlag reading.taken flag }

/-- Reads a question, which ends the reading. -/
def readQuestion (reading : Reading) (question : UsageFault) : Except UsageFault Reading := do
  let _ ← reading.settle
  throw question

/-- Reads a file. -/
def readFile (reading : Reading) (path : String) : Except UsageFault Reading := do
  if reading.hasFile then throw (.unknown path)
  let reading ← reading.settle
  return { reading with pending := some (.file, some path) }

/-! ## Names -/

/-- The two sides of the first equals sign, if there is one. -/
def splitEquals (text : List Char) : List Char × Option String :=
  match text.dropWhile (· ≠ '=') with
  | [] => (text, none)
  | _ :: value => (text.takeWhile (· ≠ '='), some (String.ofList value))

/-- Reads a long name, given without its dashes. -/
def readLong (reading : Reading) (text : List Char) : Except UsageFault Reading :=
  let (name, attached) := splitEquals text
  let shown := String.ofList ('-' :: '-' :: name)
  let plain (read : Except UsageFault Reading) : Except UsageFault Reading :=
    match attached with
    | some value => .error (.unneeded value shown)
    | none => read
  match shown with
  | "--language" => reading.readOption .language attached
  | "--highlight" => reading.readOption .highlight attached
  | "--theme" => reading.readOption .theme attached
  | "--config" => reading.readOption .config attached
  | "--dark" => plain (reading.readFlag .dark)
  | "--no-install" => plain (reading.readFlag .noInstall)
  | "--list-languages" => plain (reading.readFlag .listLanguages)
  | "--help" => plain (reading.readQuestion .help)
  | "--version" => plain (reading.readQuestion .version)
  | _ => .error (.unknown shown)

/-- Reads short names, given without their dash. All that a short name can be takes the rest as its value
or ends the reading, so only the first counts. -/
def readShort (reading : Reading) (text : List Char) : Except UsageFault Reading :=
  match text with
  | [] => .ok reading
  | name :: rest =>
    let attached := match rest with
      | [] => none
      | '=' :: value => some (String.ofList value)
      | value => some (String.ofList value)
    match name with
    | 'l' => reading.readOption .language attached
    | 't' => reading.readOption .theme attached
    | 'h' => reading.readQuestion .help
    | 'V' => reading.readQuestion .version
    | other => .error (.unknown (String.ofList ['-', other]))

/-- Reads an argument. -/
def read (reading : Reading) (argument : String) : Except UsageFault Reading :=
  if reading.onlyFiles then reading.readFile argument
  else
    match argument.toList with
    | ['-', '-'] => .ok { reading with onlyFiles := true }
    | '-' :: '-' :: name => reading.readLong name
    | '-' :: name :: rest => reading.readShort (name :: rest)
    | _ =>
      -- a dash by itself, or no dash in front: a value where one is missing, or else a file
      match reading.pending with
      | some (slot, none) => .ok { reading with pending := some (slot, some argument) }
      | _ => reading.readFile argument

end Reading

/-- What a command line says. -/
def read (arguments : List String) : Except UsageFault Arguments := do
  let reading ← arguments.foldlM Reading.read .fresh
  let reading ← reading.settle
  if reading.taken.file.isNone && !reading.taken.listLanguages then throw .missingFile
  return reading.taken

end CodeMarkup.CommandLine
