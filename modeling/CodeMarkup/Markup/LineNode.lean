/-!
# Annotated lines

Before a line of a listing is written, whoever asked for the listing may annotate it: add classes and
set properties, which become the line's attributes. Classes keep the order in which they were first
added and never repeat. Properties are kept by name in ascending order, one value to a name, so that
the text of the attributes does not depend on the order in which they were set.
-/

namespace CodeMarkup

/-- A line of a listing with its annotations. -/
structure LineNode where
  /-- the line's number -/
  line : Nat
  /-- the classes, in order of first addition -/
  classes : List String
  /-- the properties, ascending by name -/
  properties : List (String × String)
  deriving DecidableEq, Repr

/-- What an annotation does to a line. -/
abbrev Annotation := LineNode → LineNode

/-- The class that every line of a listing has. -/
def lineClass : String := "line"

/-- Pairs ascending by name, with the value of one name set. -/
def setValue (name value : String) : List (String × String) → List (String × String)
  | [] => [(name, value)]
  | (other, old) :: rest =>
    if name < other then (name, value) :: (other, old) :: rest
    else if name = other then (name, value) :: rest
    else (other, old) :: setValue name value rest

/-- Setting a name gives that name its value and no other name a new one. -/
theorem lookup_setValue (name value other : String) (pairs : List (String × String)) :
    (setValue name value pairs).lookup other
      = if other = name then some value else pairs.lookup other := by
  have miss : ∀ {a b : String}, a ≠ b → (a == b) = false := fun h => by simpa using h
  induction pairs with
  | nil => by_cases h : other = name <;> simp [setValue, List.lookup_nil, List.lookup_cons, h, miss]
  | cons pair rest ih =>
    obtain ⟨first, old⟩ := pair
    unfold setValue
    split
    -- the name goes in front, or takes the place of itself, or goes further on
    · by_cases h : other = name <;> simp [List.lookup_cons, h, miss]
    · split
      · rename_i heq
        subst heq
        by_cases h : other = name <;> simp [List.lookup_cons, h, miss]
      · rename_i hne
        by_cases h : other = first
        · subst h
          simp [Ne.symm hne]
        · simp [List.lookup_cons, miss h, ih]

namespace LineNode

/-- A line as a listing first makes it. -/
def ofNumber (line : Nat) : LineNode :=
  ⟨line, [lineClass], []⟩

/-- The line with a property set. -/
def setProperty (node : LineNode) (name value : String) : LineNode :=
  { node with properties := setValue name value node.properties }

/-- The value of a property. -/
def property? (node : LineNode) (name : String) : Option String :=
  node.properties.lookup name

/-- Whether the line has a class. -/
def hasClass (node : LineNode) (name : String) : Bool :=
  node.classes.contains name

/-- The line with a class added, unless it has it already. -/
def addClass (node : LineNode) (name : String) : LineNode :=
  if node.hasClass name then node else { node with classes := node.classes ++ [name] }

end LineNode

end CodeMarkup
