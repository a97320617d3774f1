import CodeMarkup.Theme.Basic

/-!
# Built-in themes

Eight palettes come with the library. Two of them belong to families that have a light and a dark
variant each; a family name and a dark-mode flag together choose the variant. A name that is neither a
family nor a palette chooses `css-variables`, whose paints the surrounding page defines, so that every
choice leads to a theme that exists.
-/

namespace CodeMarkup.Theme

/-- The style of a packed colour. -/
def tint (packed : UInt32) : Style :=
  ⟨.ofPacked packed, false, false⟩

/-- A bold style of a packed colour. -/
def boldTint (packed : UInt32) : Style :=
  ⟨.ofPacked packed, true, false⟩

/-- An italic style of a packed colour. -/
def italicTint (packed : UInt32) : Style :=
  ⟨.ofPacked packed, false, true⟩

/-- The style of a custom property. -/
def propertyTint (name : String) : Style :=
  ⟨.property name, false, false⟩

/-- Pastel accents on slate. -/
def tailwindDark : Theme where
  name := "tailwind-dark"
  background := .ofPacked 0x0f172a
  foreground := .ofPacked 0xe2e8f0
  keywords := tint 0xf472b6
  strings := tint 0x6ee7b7
  numbers := tint 0xfcd34d
  comments := italicTint 0x64748b
  functions := tint 0x7dd3fc
  types := tint 0xc4b5fd
  variableNames := tint 0xe2e8f0
  operators := tint 0x94a3b8
  punctuation := tint 0x94a3b8

/-- Strong accents on white. -/
def tailwindLight : Theme where
  name := "tailwind-light"
  background := .ofPacked 0xffffff
  foreground := .ofPacked 0x1e293b
  keywords := tint 0xdb2777
  strings := tint 0x047857
  numbers := tint 0xb45309
  comments := italicTint 0x94a3b8
  functions := tint 0x0369a1
  types := tint 0x6d28d9
  variableNames := tint 0x1e293b
  operators := tint 0x64748b
  punctuation := tint 0x64748b

/-- The name of the theme whose paints the page defines. -/
@[match_pattern]
def cssVariablesName : String := "css-variables"

/-- The page's own palette. -/
def cssVariables : Theme where
  name := "css-variables"
  background := .property "--lark-color-background"
  foreground := .property "--lark-color-text"
  keywords := propertyTint "--lark-token-keyword"
  strings := propertyTint "--lark-token-string"
  numbers := propertyTint "--lark-token-constant"
  comments := propertyTint "--lark-token-comment"
  functions := propertyTint "--lark-token-function"
  types := propertyTint "--lark-token-type"
  variableNames := propertyTint "--lark-token-parameter"
  operators := propertyTint "--lark-token-punctuation"
  punctuation := propertyTint "--lark-token-punctuation"

instance : Inhabited Theme := ⟨cssVariables⟩

/-- Warm and retro, on charcoal. -/
def gruvboxDark : Theme where
  name := "gruvbox-dark"
  background := .ofPacked 0x282828
  foreground := .ofPacked 0xebdbb2
  keywords := boldTint 0xfb4934
  strings := tint 0xb8bb26
  numbers := tint 0xd3869b
  comments := italicTint 0x928374
  functions := tint 0xfabd2f
  types := tint 0x83a598
  variableNames := tint 0xebdbb2
  operators := tint 0xfe8019
  punctuation := tint 0xebdbb2

/-- Warm and retro, on cream. -/
def gruvboxLight : Theme where
  name := "gruvbox-light"
  background := .ofPacked 0xfbf1c7
  foreground := .ofPacked 0x3c3836
  keywords := boldTint 0x9d0006
  strings := tint 0x79740e
  numbers := tint 0x8f3f71
  comments := italicTint 0x928374
  functions := tint 0xb57614
  types := tint 0x076678
  variableNames := tint 0x3c3836
  operators := tint 0xd65d0e
  punctuation := tint 0x3c3836

/-- Arctic blues. -/
def nord : Theme where
  name := "nord"
  background := .ofPacked 0x2e3440
  foreground := .ofPacked 0xd8dee9
  keywords := boldTint 0x81a1c1
  strings := tint 0xa3be8c
  numbers := tint 0xb48ead
  comments := italicTint 0x616e88
  functions := tint 0x88c0d0
  types := tint 0x8fbcbb
  variableNames := tint 0xd8dee9
  operators := tint 0x81a1c1
  punctuation := tint 0xeceff4

/-- Vibrant accents on violet grey. -/
def dracula : Theme where
  name := "dracula"
  background := .ofPacked 0x282a36
  foreground := .ofPacked 0xf8f8f2
  keywords := boldTint 0xff79c6
  strings := tint 0xf1fa8c
  numbers := tint 0xbd93f9
  comments := italicTint 0x6272a4
  functions := tint 0x50fa7b
  types := italicTint 0x8be9fd
  variableNames := tint 0xf8f8f2
  operators := tint 0xff79c6
  punctuation := tint 0xf8f8f2

/-- Muted accents on deep cyan. -/
def solarizedDark : Theme where
  name := "solarized-dark"
  background := .ofPacked 0x002b36
  foreground := .ofPacked 0x839496
  keywords := boldTint 0x859900
  strings := tint 0x2aa198
  numbers := tint 0xd33682
  comments := italicTint 0x586e75
  functions := tint 0x268bd2
  types := tint 0xb58900
  variableNames := tint 0x839496
  operators := tint 0x859900
  punctuation := tint 0x839496

/-- The names of the built-in themes, in the order in which they are listed. -/
def builtinNames : List String :=
  ["tailwind-dark", "tailwind-light", "gruvbox-dark", "gruvbox-light", "nord", "dracula", "solarized-dark",
    cssVariablesName]

/-- The built-in theme of a name. -/
def builtin? : String → Option Theme
  | "tailwind-dark" => some tailwindDark
  | "tailwind-light" => some tailwindLight
  | "gruvbox-dark" => some gruvboxDark
  | "gruvbox-light" => some gruvboxLight
  | "nord" => some nord
  | "dracula" => some dracula
  | "solarized-dark" => some solarizedDark
  | cssVariablesName => some cssVariables
  | _ => none

/-- The built-in themes, in the order in which they are listed. -/
def builtin : List Theme :=
  [tailwindDark, tailwindLight, gruvboxDark, gruvboxLight, nord, dracula, solarizedDark,
    cssVariables]

/-- The families with a light and a dark variant. -/
def families : List String :=
  ["tailwind", "gruvbox"]

/-- The name of the theme that a chosen name stands for: a family takes the variant that the mode asks
for, a built-in theme stands for itself, and any other name for the page's own palette. -/
def resolve (choice : String) (dark : Bool) : String :=
  if choice ∈ families then choice ++ "-" ++ (if dark then "dark" else "light")
  else if (builtin? choice).isSome then choice
  else cssVariablesName

end CodeMarkup.Theme
