import CodeMarkup.Language.Builtin
import CodeMarkup.Text.Split
import CodeMarkup.Text.Utf8

/-!
# Detecting a language by file name

A file's language is guessed from the last component of its path: a few names are known as such, and
otherwise the extension decides. A path is a sequence of bytes, since a file name need not be text.

The last component is what remains of the path after trailing slashes and `.` components; a path that
ends in `..` or has no component names no file. The extension is what follows the last dot, unless that
dot is the first byte of the name.

Letter case does not matter in an extension. Only one character outside ASCII has an ASCII letter as
its lower case, the Kelvin sign, so lowering ASCII letters and that sign recognises every extension
that full lower-casing would.
-/

namespace CodeMarkup

/-! ## Components -/

/-- A path as the bytes by which the file system knows it. -/
abbrev PathBytes := List UInt8

namespace PathBytes

/-- The byte that separates components. -/
def slash : UInt8 := 0x2F

/-- The byte before an extension. -/
def dot : UInt8 := 0x2E

/-- The components of a path: empty pieces and pieces that stay where they are do not count. -/
def components (path : PathBytes) : List PathBytes :=
  (Text.split slash path).filter fun piece => piece ≠ [] ∧ piece ≠ [dot]

/-- The name of the file that a path leads to, if its last component names one. -/
def fileName? (path : PathBytes) : Option PathBytes :=
  (components path).getLast?.filter (· ≠ [dot, dot])

/-- What follows the last dot of a name, if there is one after its first byte. -/
def extensionOf? : PathBytes → Option PathBytes
  | [] => none
  | _ :: rest => afterLastDot rest
where
  /-- what follows the last dot -/
  afterLastDot : PathBytes → Option PathBytes
    | [] => none
    | b :: rest =>
      match afterLastDot rest with
      | some found => some found
      | none => if b = dot then some rest else none

/-- The bytes of a path written as text. -/
def ofString (path : String) : PathBytes :=
  Text.Utf8.encode path

end PathBytes

/-! ## Detection -/

namespace Builtin

/-- The lower case of a character, for comparison with ASCII letters. -/
def lowerChar (c : Char) : Char :=
  if c = '\u212A' then 'k' else c.toLower

/-- The language of an extension in lower case. -/
def ofLowerExtension? (extension : String) : Option Builtin :=
  match extension with
  | "rs" => some .rust
  | "py" | "pyw" | "pyi" => some .python
  | "js" | "mjs" | "cjs" | "jsx" => some .javaScript
  | "ts" | "mts" | "cts" => some .typeScript
  | "tsx" => some .tsx
  | "go" => some .go
  | "c" | "h" => some .c
  | "cpp" | "cc" | "cxx" | "hpp" | "hxx" | "hh" => some .cpp
  | "json" => some .json
  | "toml" => some .toml
  | "md" | "markdown" => some .markdown
  | "sh" | "bash" | "zsh" => some .bash
  | "lua" => some .lua
  | "rb" => some .ruby
  | "html" | "htm" => some .html
  | "css" | "scss" | "sass" => some .css
  | "yaml" | "yml" => some .yaml
  | _ => none

/-- The language of an extension in any case. -/
def ofExtension? (extension : String) : Option Builtin :=
  ofLowerExtension? (String.ofList (extension.toList.map lowerChar))

/-- What a file name says by itself: `some` of an answer where the name is known, be it that the file
has no built-in language. -/
def ofKnownName? (name : String) : Option (Option Builtin) :=
  match name with
  | "Cargo.lock" => some (some .toml)
  | ".bashrc" | ".bash_profile" | ".zshrc" => some (some .bash)
  | "Makefile" | "makefile" | "GNUmakefile" => some none
  | _ => none

/-- The language of a file name. A name or an extension that is not text says nothing. -/
def ofFileName? (name : PathBytes) : Option Builtin :=
  match (Text.Utf8.decode? name).bind ofKnownName? with
  | some answer => answer
  | none => ((PathBytes.extensionOf? name).bind Text.Utf8.decode?).bind ofExtension?

/-- The language of the file that a path leads to. -/
def ofPath? (path : PathBytes) : Option Builtin :=
  path.fileName?.bind ofFileName?

end Builtin

end CodeMarkup
