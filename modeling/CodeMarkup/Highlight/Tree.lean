import CodeMarkup.Highlight.Kind

/-!
# Syntax trees

A parser hands over an ordered tree of nodes. A node says what it is, which bytes and rows of the code
it covers, and under which field name it hangs in its parent. Children and siblings are one structure
here, a **forest**: a node, the forest below it and the forest after it. Walking a forest in that order
visits the tree in pre-order, and every proof about the walk is a plain induction.

`classify` gives each node its kind in the same order. Only one rule looks beyond the node itself: a
variable becomes a function name when it is the first child of its parent under the field in which
that parent names its function. The walk therefore carries that field along the siblings, and forgets
it once a child has taken it.
-/

namespace CodeMarkup

/-- A node of a syntax tree, without its children. -/
structure Node where
  /-- the grammar's name for the node, or the text of an anonymous one -/
  name : String
  /-- whether the grammar names the node -/
  named : Bool
  /-- the first byte of the node -/
  start : Nat
  /-- the byte after its last -/
  stop : Nat
  /-- the row of its first byte, from 0 -/
  startRow : Nat
  /-- the row of the byte after its last -/
  stopRow : Nat
  /-- the field of its parent in which it hangs, if it has one -/
  field : Option String
  deriving DecidableEq, Repr

/-- Siblings with everything below them. -/
inductive Forest where
  /-- no node -/
  | empty
  /-- a node, the forest below it and its later siblings -/
  | plant (node : Node) (below after : Forest)
  deriving DecidableEq, Repr

/-- A tree: a root and the forest below it. -/
structure Tree where
  /-- the root -/
  root : Node
  /-- the root's children -/
  below : Forest
  deriving DecidableEq, Repr

namespace Forest

/-- Whether the forest holds no node. -/
def isEmpty : Forest → Bool
  | .empty => true
  | .plant .. => false

/-- Every node, in pre-order. -/
def nodes : Forest → List Node
  | .empty => []
  | .plant node below after => node :: (below.nodes ++ after.nodes)

/-- The siblings at the top, in order. -/
def top : Forest → List Node
  | .empty => []
  | .plant node _ after => node :: after.top

/-- The forest that a pre-order listing with depths describes, and what of the listing lies outside
it. The forest holds the entries of exactly the given depth and what hangs below them; it ends at an
entry that is less deep. -/
def ofListing (depth : Nat) : (fuel : Nat) → List (Nat × Node) → Forest × List (Nat × Node)
  | 0, listing => (.empty, listing)
  | _, [] => (.empty, [])
  | fuel + 1, (d, node) :: rest =>
    if d < depth then (.empty, (d, node) :: rest)
    else
      let (below, rest) := ofListing (d + 1) fuel rest
      let (after, rest) := ofListing depth fuel rest
      (.plant node below after, rest)

end Forest

namespace Tree

/-- Every node, in pre-order. -/
def nodes (tree : Tree) : List Node :=
  tree.root :: tree.below.nodes

/-- The tree that a pre-order listing with depths describes, if it starts with a root. -/
def ofListing? (listing : List (Nat × Node)) : Option Tree :=
  match listing with
  | [] => none
  | (depth, root) :: rest => some ⟨root, (Forest.ofListing (depth + 1) rest.length rest).1⟩

end Tree

/-! ## Kinds of nodes -/

/-- A node with its kind. -/
structure Classified where
  /-- the node -/
  node : Node
  /-- its kind -/
  kind : Kind
  /-- whether it has no children -/
  leaf : Bool
  deriving DecidableEq, Repr

/-- The kind of a node, when `promoted` says whether its parent names its function with it. -/
def Node.kind (node : Node) (promoted : Bool) : Kind :=
  if node.named then
    let kind := Kind.ofNodeName node.name
    if promoted ∧ kind = .variable then .function else kind
  else Kind.ofText node.name

/-- Whether a node hangs in an awaited field. -/
def Node.fills (node : Node) (awaited : Option String) : Bool :=
  awaited.isSome && node.field == awaited

/-- The nodes of a forest with their kinds, in pre-order. `awaited` is the field in which the parent
names its function, as long as no earlier sibling has filled it. -/
def Forest.classify (awaited : Option String) : Forest → List Classified
  | .empty => []
  | .plant node below after =>
    let promoted := node.fills awaited
    ⟨node, node.kind promoted, below.isEmpty⟩ ::
      (below.classify (Kind.calleeField? node.name)
        ++ after.classify (if promoted then none else awaited))

/-- The nodes of a tree with their kinds, in pre-order. -/
def Tree.classify (tree : Tree) : List Classified :=
  ⟨tree.root, tree.root.kind false, tree.below.isEmpty⟩ ::
    tree.below.classify (Kind.calleeField? tree.root.name)

/-- Classifying a forest loses no node and keeps their order. -/
theorem Forest.map_node_classify (awaited : Option String) (forest : Forest) :
    (forest.classify awaited).map Classified.node = forest.nodes := by
  induction forest generalizing awaited with
  | empty => rfl
  | plant node below after ihb iha => simp [classify, nodes, ihb, iha]

/-- Classifying a tree loses no node and keeps their order. -/
theorem Tree.map_node_classify (tree : Tree) :
    tree.classify.map Classified.node = tree.nodes := by
  simp [classify, nodes, Forest.map_node_classify]

end CodeMarkup
