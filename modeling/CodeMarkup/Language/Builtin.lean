/-!
# Built-in languages

Seventeen languages are known by name. Each has a grammar, published in a source repository; some
repositories hold several grammars, and then the grammar sits in a directory of its own. A grammar's
name is also the key under which its language is selected and the name of its compiled library.

A language needs its whole **chain** of grammars, dependencies first. Only TypeScript has a
dependency: it is drawn with the grammar of its JSX variant, which must therefore be there as well.
-/

namespace CodeMarkup

/-- A language that the library knows how to obtain. -/
inductive Builtin where
  | rust | python | javaScript | typeScript | tsx | go | c | cpp | json | toml | markdown | bash
  | lua | ruby | html | css | yaml
  deriving DecidableEq, Repr

namespace Builtin

/-- Every built-in language. -/
def all : List Builtin :=
  [.rust, .python, .javaScript, .typeScript, .tsx, .go, .c, .cpp, .json, .toml, .markdown, .bash,
    .lua, .ruby, .html, .css, .yaml]

/-- The name under which a language is shown. -/
def displayName : Builtin → String
  | .rust => "Rust"
  | .python => "Python"
  | .javaScript => "JavaScript"
  | .typeScript => "TypeScript"
  | .tsx => "TSX"
  | .go => "Go"
  | .c => "C"
  | .cpp => "C++"
  | .json => "JSON"
  | .toml => "TOML"
  | .markdown => "Markdown"
  | .bash => "Bash"
  | .lua => "Lua"
  | .ruby => "Ruby"
  | .html => "HTML"
  | .css => "CSS"
  | .yaml => "YAML"

/-- The name of a language's own grammar. -/
def grammarName : Builtin → String
  | .rust => "rust"
  | .python => "python"
  | .javaScript => "javascript"
  | .typeScript => "typescript"
  | .tsx => "tsx"
  | .go => "go"
  | .c => "c"
  | .cpp => "cpp"
  | .json => "json"
  | .toml => "toml"
  | .markdown => "markdown"
  | .bash => "bash"
  | .lua => "lua"
  | .ruby => "ruby"
  | .html => "html"
  | .css => "css"
  | .yaml => "yaml"

/-- The repository in which a language's grammar is published. -/
def repository : Builtin → String
  | .rust => "tree-sitter/tree-sitter-rust"
  | .python => "tree-sitter/tree-sitter-python"
  | .javaScript => "tree-sitter/tree-sitter-javascript"
  | .typeScript | .tsx => "tree-sitter/tree-sitter-typescript"
  | .go => "tree-sitter/tree-sitter-go"
  | .c => "tree-sitter/tree-sitter-c"
  | .cpp => "tree-sitter/tree-sitter-cpp"
  | .json => "tree-sitter/tree-sitter-json"
  | .toml => "tree-sitter-grammars/tree-sitter-toml"
  | .markdown => "tree-sitter-grammars/tree-sitter-markdown"
  | .bash => "tree-sitter/tree-sitter-bash"
  | .lua => "tree-sitter-grammars/tree-sitter-lua"
  | .ruby => "tree-sitter/tree-sitter-ruby"
  | .html => "tree-sitter/tree-sitter-html"
  | .css => "tree-sitter/tree-sitter-css"
  | .yaml => "tree-sitter-grammars/tree-sitter-yaml"

/-- The directory of the grammar inside its repository, where the repository holds several. -/
def subdirectory? : Builtin → Option String
  | .typeScript => some "typescript"
  | .tsx => some "tsx"
  | .markdown => some "tree-sitter-markdown"
  | _ => none

/-- The languages whose grammars must be loaded, in order, before a language can be drawn; it comes
last itself. -/
def chain : Builtin → List Builtin
  | .typeScript => [.tsx, .typeScript]
  | language => [language]

/-- The language of a grammar's name. -/
def ofGrammarName? (name : String) : Option Builtin :=
  all.find? (·.grammarName == name)

theorem grammarName_injective {one other : Builtin} (h : one.grammarName = other.grammarName) :
    one = other := by
  cases one <;> cases other <;> first | rfl | simp [grammarName] at h

end Builtin

end CodeMarkup
