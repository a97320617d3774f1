import Mathlib.Data.List.Forall2
import Mathlib.Data.List.Nodup
import CodeMarkup.Highlight.Tree

/-!
# Function names

The kind of a node hangs on more than the node only where a variable is taken for the name of a function, and what
decides that is its **place**: its parent, and which of the parent's children it is. A place is given by an address, the
way down from the root as the numbers of the children gone through. Nodes that look alike have different addresses.

Classifying goes through the tree in pre-order and hands the awaited field along the siblings. At each address it comes
to what the place says (`Forest.describes_classify`): a node is taken for a function's name if it is the first child of
its parent in the field where such a parent names a function. There is one first child at most, so no parent has two
children that are function names (`Tree.kindAt?_eq_function_iff`).
-/

namespace CodeMarkup

/-! ## Addresses -/

/-- The tree of a sibling, counted from the first. -/
def Forest.child? : Forest → Nat → Option Tree
  | .empty, _ => none
  | .plant node below _, 0 => some ⟨node, below⟩
  | .plant _ _ after, index + 1 => after.child? index

/-- The tree at an address: that of the child which the first number names, and so on from there. -/
def Tree.get? (tree : Tree) : List Nat → Option Tree
  | [] => some tree
  | index :: rest => (tree.below.child? index).bind fun child => child.get? rest

/-- The addresses of the nodes of a forest in pre-order, the first sibling being the child of that number. -/
def Forest.addresses (index : Nat) : Forest → List (List Nat)
  | .empty => []
  | .plant _ below after => [index] :: ((below.addresses 0).map (index :: ·) ++ after.addresses (index + 1))

/-- The addresses of the nodes of a tree, in pre-order. -/
def Tree.addresses (tree : Tree) : List (List Nat) :=
  [] :: tree.below.addresses 0

/-- The kind that classifying comes to at an address. -/
def Tree.kindAt? (tree : Tree) (address : List Nat) : Option Kind :=
  ((tree.addresses.zip tree.classify).lookup address).map Classified.kind

/-! ## Callees -/

/-- What defines or calls a function, and the field in which it names it. -/
inductive CalleeField : String → String → Prop where
  /-- a definition, by a name -/
  | definition {name : String}
      (h : name ∈ ["function_item", "function_definition", "function_declaration", "method_definition"]) :
    CalleeField name "name"
  /-- a call, by the function -/
  | call : CalleeField "call_expression" "function"
  /-- the use of a macro, by the macro -/
  | invocation : CalleeField "macro_invocation" "macro"

theorem calleeField?_eq_some_iff {name field : String} :
    Kind.calleeField? name = some field ↔ CalleeField name field := by
  refine ⟨fun h => ?_, ?_⟩
  · unfold Kind.calleeField? at h
    split at h
    case h_5 =>
      cases h
      exact .call
    case h_6 =>
      cases h
      exact .invocation
    case h_7 => cases h
    all_goals
      cases h
      exact .definition (by decide)
  · rintro (hname | _ | _)
    · simp only [List.mem_cons, List.not_mem_nil, or_false] at hname
      rcases hname with rfl | rfl | rfl | rfl
      all_goals rfl
    · rfl
    · rfl

theorem CalleeField.unique {name field other : String} (h : CalleeField name field) (h' : CalleeField name other) :
    field = other :=
  Option.some.inj ((calleeField?_eq_some_iff.mpr h).symm.trans (calleeField?_eq_some_iff.mpr h'))

/-- No child before one of that number hangs in a field. -/
def Forest.NoneBefore (forest : Forest) (index : Nat) (field : String) : Prop :=
  ∀ earlier < index, ∀ elder, forest.child? earlier = some elder → elder.root.field ≠ some field

/-- The node at an address is the first child of its parent in the field in which such a parent names a function. -/
def Tree.IsCallee (tree : Tree) (address : List Nat) : Prop :=
  ∃ above index parent child field, address = above ++ [index] ∧ tree.get? above = some parent ∧
    parent.below.child? index = some child ∧ CalleeField parent.root.name field ∧ child.root.field = some field ∧
    parent.below.NoneBefore index field

section Children

variable {tree child : Tree} {index : Nat} {address : List Nat}

theorem Tree.get?_cons (h : tree.below.child? index = some child) (rest : List Nat) :
    tree.get? (index :: rest) = child.get? rest := by
  rw [get?, h, Option.bind_some]

/-- Whether a child is a callee is seen from its parent. -/
theorem Tree.isCallee_singleton_iff (h : tree.below.child? index = some child) :
    tree.IsCallee [index] ↔
      ∃ field, CalleeField tree.root.name field ∧ child.root.field = some field ∧
        tree.below.NoneBefore index field := by
  refine ⟨?_, ?_⟩
  · rintro ⟨above, last, parent, found, field, haddress, hparent, hchild, hcallee⟩
    rcases above with _ | ⟨first, above⟩
    · obtain rfl : index = last := by simpa using haddress
      obtain rfl : tree = parent := Option.some.inj hparent
      obtain rfl : child = found := Option.some.inj (h.symm.trans hchild)
      exact ⟨field, hcallee⟩
    · simp at haddress
  · rintro ⟨field, hcallee⟩
    exact ⟨[], index, tree, child, field, rfl, rfl, h, hcallee⟩

/-- Further down, it is seen from the child that lies on the way. -/
theorem Tree.isCallee_cons_iff (h : tree.below.child? index = some child) (hne : address ≠ []) :
    tree.IsCallee (index :: address) ↔ child.IsCallee address := by
  refine ⟨?_, ?_⟩
  · rintro ⟨above, last, parent, found, field, haddress, hparent, hcallee⟩
    rcases above with _ | ⟨first, above⟩
    · exact absurd (List.cons.inj haddress).2 hne
    · obtain ⟨rfl, hrest⟩ := List.cons.inj haddress
      rw [get?_cons h] at hparent
      exact ⟨above, last, parent, found, field, hrest, hparent, hcallee⟩
  · rintro ⟨above, last, parent, found, field, rfl, hparent, hcallee⟩
    exact ⟨index :: above, last, parent, found, field, rfl, (get?_cons h above).trans hparent, hcallee⟩

end Children

/-! ## The awaited field -/

/-- The field that is awaited at a child: that in which a callee hangs, unless an earlier child hangs in it. -/
def Tree.AwaitsAt (tree : Tree) (index : Nat) (awaited : Option String) : Prop :=
  ∀ field, awaited = some field ↔ CalleeField tree.root.name field ∧ tree.below.NoneBefore index field

theorem Node.fills_iff {node : Node} {awaited : Option String} :
    node.fills awaited = true ↔ ∃ field, awaited = some field ∧ node.field = some field := by
  rcases awaited with _ | field
  · simp [fills]
  · simp [fills]

/-- At the first child, the field for a callee is awaited. -/
theorem Tree.awaitsAt_zero (tree : Tree) : tree.AwaitsAt 0 (Kind.calleeField? tree.root.name) := by
  intro field
  rw [calleeField?_eq_some_iff]
  exact ⟨fun h => ⟨h, fun _ hlt => absurd hlt (Nat.not_lt_zero _)⟩, And.left⟩

/-- A child that hangs in the awaited field ends the waiting. -/
theorem Tree.AwaitsAt.next {tree child : Tree} {index : Nat} {awaited : Option String} (h : tree.AwaitsAt index awaited)
    (hchild : tree.below.child? index = some child) :
    tree.AwaitsAt (index + 1) (if child.root.fills awaited then none else awaited) := by
  intro field
  have hbefore : tree.below.NoneBefore (index + 1) field ↔
      tree.below.NoneBefore index field ∧ child.root.field ≠ some field := by
    refine ⟨fun hnone => ⟨fun earlier hlt => hnone earlier (Nat.lt_succ_of_lt hlt), hnone index (Nat.lt_succ_self _) child hchild⟩, ?_⟩
    rintro ⟨hnone, hlast⟩ earlier hlt elder helder
    rcases Nat.lt_succ_iff_lt_or_eq.mp hlt with hlt | rfl
    · exact hnone earlier hlt elder helder
    · obtain rfl : child = elder := Option.some.inj (hchild.symm.trans helder)
      exact hlast
  rw [hbefore, ← and_assoc, ← h field]
  by_cases hfills : child.root.fills awaited = true
  · obtain ⟨filled, rfl, hfield⟩ := Node.fills_iff.mp hfills
    rw [if_pos hfills, hfield]
    exact ⟨nofun, fun hother => absurd hother.1 hother.2⟩
  · rw [if_neg hfills]
    exact ⟨fun hawaited => ⟨hawaited, fun hfield => hfills (Node.fills_iff.mpr ⟨field, hawaited, hfield⟩)⟩, And.left⟩

/-- **A child fills the awaited field iff it is a callee.** -/
theorem Tree.AwaitsAt.fills_iff {tree child : Tree} {index : Nat} {awaited : Option String}
    (h : tree.AwaitsAt index awaited) (hchild : tree.below.child? index = some child) :
    child.root.fills awaited = true ↔ tree.IsCallee [index] := by
  rw [Node.fills_iff, isCallee_singleton_iff hchild]
  refine exists_congr fun field => ?_
  rw [h field, and_right_comm, and_assoc]

/-! ## Classifying -/

/-- What classifying says of the node at an address is what its place says. -/
structure Tree.Describes (tree : Tree) (address : List Nat) (item : Classified) : Prop where
  /-- the address leads to the node -/
  node : (tree.get? address).map Tree.root = some item.node
  /-- the node is taken for a function's name if it is a callee -/
  kind : ∃ promoted : Bool, item.kind = item.node.kind promoted ∧ (promoted = true ↔ tree.IsCallee address)

theorem Tree.Describes.cons {tree child : Tree} {index : Nat} {address : List Nat} {item : Classified}
    (h : child.Describes address item) (hchild : tree.below.child? index = some child) (hne : address ≠ []) :
    tree.Describes (index :: address) item := by
  obtain ⟨promoted, hkind, hcallee⟩ := h.kind
  refine ⟨?_, promoted, hkind, hcallee.trans (isCallee_cons_iff hchild hne).symm⟩
  rw [get?_cons hchild]
  exact h.node

/-- **Classifying says of every node what its place says**: of the children of a tree from one on, and of all that lies
below them. -/
theorem Forest.describes_classify {tree : Tree} {forest : Forest} {index : Nat} {awaited : Option String}
    (hforest : ∀ place, tree.below.child? (index + place) = forest.child? place)
    (hawaits : tree.AwaitsAt index awaited) :
    List.Forall₂ (fun address item => address ≠ [] ∧ tree.Describes address item)
      (forest.addresses index) (forest.classify awaited) := by
  induction forest generalizing tree index awaited with
  | empty => exact .nil
  | plant node below after ihb iha =>
    have hchild : tree.below.child? index = some ⟨node, below⟩ := hforest 0
    have hhere : tree.Describes [index] ⟨node, node.kind (node.fills awaited), below.isEmpty⟩ := by
      refine ⟨?_, node.fills awaited, rfl, hawaits.fills_iff hchild⟩
      rw [Tree.get?_cons hchild]
      rfl
    have hbelow := ihb (fun place => by rw [Nat.zero_add]) (Tree.awaitsAt_zero ⟨node, below⟩)
    have hlater (place : Nat) : tree.below.child? (index + 1 + place) = after.child? place := by
      rw [Nat.add_assoc, Nat.add_comm 1 place, hforest (place + 1), child?]
    have hafter := iha hlater (hawaits.next hchild)
    refine .cons ⟨List.cons_ne_nil _ _, hhere⟩ (List.rel_append ?_ hafter)
    rw [List.forall₂_map_left_iff]
    exact hbelow.imp fun address item h => ⟨List.cons_ne_nil _ _, h.2.cons hchild h.1⟩

theorem Tree.not_isCallee_nil (tree : Tree) : ¬tree.IsCallee [] := by
  rintro ⟨above, index, -, -, -, haddress, -⟩
  simp at haddress

theorem Tree.describes_classify (tree : Tree) : List.Forall₂ tree.Describes tree.addresses tree.classify := by
  have hbelow := Forest.describes_classify (fun place => by rw [Nat.zero_add]) tree.awaitsAt_zero
  refine .cons ⟨rfl, false, rfl, ?_⟩ ((List.forall₂_and_left _ _).mp hbelow).2
  exact ⟨nofun, fun h => absurd h tree.not_isCallee_nil⟩

/-! ## The listing of addresses -/

theorem Forest.mem_addresses {forest : Forest} {place : Nat} {child : Tree} {rest : List Nat} (index : Nat)
    (hchild : forest.child? place = some child) (hrest : rest ∈ child.addresses) :
    (index + place) :: rest ∈ forest.addresses index := by
  induction forest generalizing place index with
  | empty => cases hchild
  | plant node below after _ iha =>
    rcases place with _ | place
    · obtain rfl : ⟨node, below⟩ = child := Option.some.inj hchild
      rcases List.mem_cons.mp hrest with rfl | hrest
      · exact List.mem_cons_self
      · exact List.mem_cons_of_mem _ (List.mem_append_left _ (List.mem_map_of_mem hrest))
    · have hlater := iha (index + 1) hchild
      rw [Nat.add_assoc, Nat.add_comm 1 place] at hlater
      exact List.mem_cons_of_mem _ (List.mem_append_right _ hlater)

/-- Every address that leads to a node is listed. -/
theorem Tree.mem_addresses {tree sub : Tree} {address : List Nat} (h : tree.get? address = some sub) :
    address ∈ tree.addresses := by
  induction address generalizing tree with
  | nil => exact List.mem_cons_self
  | cons index rest ih =>
    obtain ⟨child, hchild, hrest⟩ := Option.bind_eq_some_iff.mp h
    have hmem := Forest.mem_addresses 0 hchild (ih hrest)
    rw [Nat.zero_add] at hmem
    exact List.mem_cons_of_mem _ hmem

/-- The addresses in a forest begin with the numbers of its siblings. -/
theorem Forest.exists_of_mem_addresses {forest : Forest} {index : Nat} {address : List Nat}
    (h : address ∈ forest.addresses index) : ∃ place rest, index ≤ place ∧ address = place :: rest := by
  induction forest generalizing index address with
  | empty => cases h
  | plant node below after _ iha =>
    rw [addresses, List.mem_cons, List.mem_append, List.mem_map] at h
    rcases h with rfl | ⟨rest, -, rfl⟩ | h
    · exact ⟨index, [], Nat.le_refl _, rfl⟩
    · exact ⟨index, rest, Nat.le_refl _, rfl⟩
    · obtain ⟨place, rest, hle, rfl⟩ := iha h
      exact ⟨place, rest, Nat.le_of_succ_le hle, rfl⟩

/-- No address is listed twice. -/
theorem Forest.nodup_addresses (forest : Forest) (index : Nat) : (forest.addresses index).Nodup := by
  induction forest generalizing index with
  | empty => exact List.nodup_nil
  | plant node below after ihb iha =>
    rw [addresses, List.nodup_cons, List.nodup_append]
    refine ⟨?_, (ihb 0).map fun _ _ h => (List.cons.inj h).2, iha (index + 1), ?_⟩
    · rw [List.mem_append, List.mem_map]
      rintro (⟨rest, hrest, heq⟩ | hafter)
      · obtain ⟨_, _, -, rfl⟩ := exists_of_mem_addresses hrest
        simp at heq
      · obtain ⟨place, rest, hle, heq⟩ := exists_of_mem_addresses hafter
        obtain ⟨rfl, -⟩ := List.cons.inj heq
        exact Nat.not_succ_le_self _ hle
    · intro address hbelow other hafter heq
      obtain ⟨rest, -, rfl⟩ := List.mem_map.mp hbelow
      obtain ⟨place, rest, hle, rfl⟩ := exists_of_mem_addresses hafter
      obtain ⟨rfl, -⟩ := List.cons.inj heq
      exact Nat.not_succ_le_self _ hle

theorem Tree.nodup_addresses (tree : Tree) : tree.addresses.Nodup := by
  refine List.nodup_cons.mpr ⟨fun h => ?_, tree.below.nodup_addresses 0⟩
  obtain ⟨_, _, -, heq⟩ := Forest.exists_of_mem_addresses h
  cases heq

/-- Going through two lists together, what stands beside an entry of the one is related to it. -/
theorem exists_lookup_zip {α β : Type} [BEq α] [LawfulBEq α] {relation : α → β → Prop} {keys : List α}
    {values : List β} (h : List.Forall₂ relation keys values) {key : α} (hm : key ∈ keys) :
    ∃ value, (keys.zip values).lookup key = some value ∧ relation key value := by
  induction h with
  | nil => cases hm
  | @cons first value keys values hfirst _ ih =>
    rw [List.zip_cons_cons, List.lookup_cons]
    by_cases heq : key = first
    · subst heq
      exact ⟨value, by rw [beq_self_eq_true], hfirst⟩
    · rw [beq_false_of_ne heq]
      exact ih ((List.mem_cons.mp hm).resolve_left heq)

/-! ## Function names -/

/-- No node is a function name by its own name. -/
theorem Kind.ofNodeName_ne_function (name : String) : ofNodeName name ≠ .function := by
  unfold ofNodeName
  split
  all_goals nofun

/-- No keyword or sign is a function name. -/
theorem Kind.ofText_ne_function (text : String) : ofText text ≠ .function := by
  unfold ofText
  split
  case h_21 =>
    split
    · nofun
    · split
      · nofun
      · nofun
  all_goals nofun

/-- A node is a function name if it is a variable that was taken for one. -/
theorem Node.kind_eq_function_iff {node : Node} {promoted : Bool} :
    node.kind promoted = .function ↔
      node.named = true ∧ Kind.ofNodeName node.name = .variable ∧ promoted = true := by
  unfold kind
  split
  · rename_i hnamed
    rw [iff_true_intro hnamed, true_and]
    dsimp only
    split
    · rename_i hpromoted
      exact ⟨fun _ => hpromoted.symm, fun _ => rfl⟩
    · rename_i hpromoted
      exact ⟨fun h => absurd h (Kind.ofNodeName_ne_function _), fun h => absurd h.symm hpromoted⟩
  · rename_i hnamed
    exact ⟨fun h => absurd h (Kind.ofText_ne_function _), fun h => absurd h.1 hnamed⟩

section Kinds

variable {tree sub : Tree} {address : List Nat}

/-- **A node is a function name iff it is a named variable and a callee.** -/
theorem Tree.exists_kindAt? (h : tree.get? address = some sub) :
    ∃ kind, tree.kindAt? address = some kind ∧
      (kind = .function ↔
        sub.root.named = true ∧ Kind.ofNodeName sub.root.name = .variable ∧ tree.IsCallee address) := by
  obtain ⟨item, hlookup, hdescribes⟩ := exists_lookup_zip tree.describes_classify (mem_addresses h)
  obtain ⟨promoted, hkind, hcallee⟩ := hdescribes.kind
  have hnode : sub.root = item.node := by
    have hnode := hdescribes.node
    rw [h] at hnode
    exact Option.some.inj hnode
  refine ⟨item.kind, by rw [kindAt?, hlookup, Option.map_some], ?_⟩
  rw [hkind, Node.kind_eq_function_iff, hcallee, hnode]

theorem Tree.IsCallee.of_kindAt? (h : tree.kindAt? address = some .function) : tree.IsCallee address := by
  obtain ⟨item, hlookup, hkind⟩ := Option.map_eq_some_iff.mp h
  obtain ⟨before, after, hzip, -⟩ := List.lookup_eq_some_iff.mp hlookup
  have hmem : (address, item) ∈ tree.addresses.zip tree.classify := hzip ▸ List.mem_append_right _ List.mem_cons_self
  obtain ⟨promoted, hitem, hcallee⟩ := (List.forall₂_zip tree.describes_classify hmem).kind
  exact hcallee.mp (Node.kind_eq_function_iff.mp (hitem.symm.trans hkind)).2.2

end Kinds

section Siblings

variable {tree parent one other : Tree} {above : List Nat} {first second : Nat}

theorem Tree.get?_concat (tree : Tree) (above : List Nat) (index : Nat) :
    tree.get? (above ++ [index]) = (tree.get? above).bind fun parent => parent.below.child? index := by
  induction above generalizing tree with
  | nil =>
    rw [List.nil_append, get?, get?, Option.bind_some]
    exact Option.bind_fun_some _
  | cons place rest ih =>
    rw [List.cons_append, get?, get?, Option.bind_assoc]
    exact Option.bind_congr fun child _ => ih child

/-- Behind a sibling that hangs in the same field there is no callee. -/
theorem Tree.not_isCallee_of_lt (hlt : first < second) (hone : tree.get? (above ++ [first]) = some one)
    (hother : tree.get? (above ++ [second]) = some other) (hfield : one.root.field = other.root.field) :
    ¬tree.IsCallee (above ++ [second]) := by
  rintro ⟨above', index, parent, child, field, haddress, hparent, hchild, -, hhangs, hnone⟩
  obtain ⟨rfl, heq⟩ := List.append_inj' haddress rfl
  obtain rfl : second = index := List.singleton_inj.mp heq
  rw [get?_concat, hparent, Option.bind_some] at hone hother
  obtain rfl : child = other := Option.some.inj (hchild.symm.trans hother)
  exact hnone first hlt one hone (hfield.trans hhangs)

/-- Of two callees with one parent, neither comes before the other. -/
theorem Tree.IsCallee.le (hfirst : tree.IsCallee (above ++ [first])) (hsecond : tree.IsCallee (above ++ [second])) :
    second ≤ first := by
  have hcallee := hsecond
  obtain ⟨above₁, index₁, parent₁, one, field₁, haddress₁, hparent₁, hone, hfield₁, hhangs₁, -⟩ := hfirst
  obtain ⟨above₂, index₂, parent₂, other, field₂, haddress₂, hparent₂, hother, hfield₂, hhangs₂, -⟩ := hsecond
  obtain ⟨rfl, heq₁⟩ := List.append_inj' haddress₁ rfl
  obtain ⟨rfl, heq₂⟩ := List.append_inj' haddress₂ rfl
  obtain rfl : first = index₁ := List.singleton_inj.mp heq₁
  obtain rfl : second = index₂ := List.singleton_inj.mp heq₂
  obtain rfl : parent₁ = parent₂ := Option.some.inj (hparent₁.symm.trans hparent₂)
  obtain rfl : field₁ = field₂ := hfield₁.unique hfield₂
  have hat₁ : tree.get? (above ++ [first]) = some one := by rw [get?_concat, hparent₁, Option.bind_some, hone]
  have hat₂ : tree.get? (above ++ [second]) = some other := by rw [get?_concat, hparent₁, Option.bind_some, hother]
  exact Nat.le_of_not_lt fun hlt => not_isCallee_of_lt hlt hat₁ hat₂ (by rw [hhangs₁, hhangs₂]) hcallee

end Siblings

/-- **A node is a function name iff it is a named variable and the first child of its parent in the field in which such a
parent names a function.** Classifying lists the nodes by their addresses, each once and in pre-order, and comes to this
kind at just these addresses. So no parent has two children that are function names, nothing behind a sibling in the same
field is one, however alike the two look, and neither is an anonymous node or the root. -/
theorem Tree.kindAt?_eq_function_iff (tree : Tree) :
    (tree.addresses.Nodup ∧
      tree.addresses.map (fun address => (tree.get? address).map Tree.root)
        = tree.classify.map fun item => some item.node) ∧
      (∀ address sub, tree.get? address = some sub → ∃ kind, tree.kindAt? address = some kind ∧
        (kind = .function ↔
          sub.root.named = true ∧ Kind.ofNodeName sub.root.name = .variable ∧ tree.IsCallee address)) ∧
      (∀ above first second, tree.kindAt? (above ++ [first]) = some .function →
        tree.kindAt? (above ++ [second]) = some .function → first = second) ∧
      (∀ above first second one other, first < second → tree.get? (above ++ [first]) = some one →
        tree.get? (above ++ [second]) = some other → one.root.field = other.root.field →
        tree.kindAt? (above ++ [second]) ≠ some .function) ∧
      (∀ address sub, tree.get? address = some sub → sub.root.named = false →
        tree.kindAt? address ≠ some .function) ∧
      tree.kindAt? [] ≠ some .function := by
  refine ⟨⟨tree.nodup_addresses, ?_⟩, fun address sub => exists_kindAt?, ?_, ?_, ?_, ?_⟩
  · rw [← List.forall₂_eq_eq_eq, List.forall₂_map_left_iff, List.forall₂_map_right_iff]
    exact tree.describes_classify.imp fun address item h => h.node
  · intro above first second hfirst hsecond
    have hone := IsCallee.of_kindAt? hfirst
    have hother := IsCallee.of_kindAt? hsecond
    exact Nat.le_antisymm (hother.le hone) (hone.le hother)
  · intro above first second one other hlt hone hother hfield hkind
    exact not_isCallee_of_lt hlt hone hother hfield (.of_kindAt? hkind)
  · intro address sub h hnamed hfunction
    obtain ⟨kind, hkind, hiff⟩ := exists_kindAt? h
    obtain rfl : kind = .function := Option.some.inj (hkind.symm.trans hfunction)
    exact absurd (hiff.mp rfl).1 (by rw [hnamed]; exact Bool.false_ne_true)
  · exact fun hkind => tree.not_isCallee_nil (.of_kindAt? hkind)

/-- A definition with two names, of no width and alike. -/
def twiceNamed : Tree where
  root := ⟨"function_item", true, 0, 0, 0, 0, none⟩
  below := .plant ⟨"fn", false, 0, 0, 0, 0, none⟩ .empty
    (.plant ⟨"identifier", true, 0, 0, 0, 0, some "name"⟩ .empty
      (.plant ⟨"identifier", true, 0, 0, 0, 0, some "name"⟩ .empty .empty))

/-- The first of the names is a function name, and the other is not. -/
theorem Tree.kindAt?_eq_function_iff_twiceNamed :
    twiceNamed.kindAt? [1] = some .function ∧ twiceNamed.kindAt? [2] ≠ some .function ∧
      twiceNamed.kindAt? [0] ≠ some .function := by
  obtain ⟨-, hkinds, -, hbehind, hanonymous, -⟩ := twiceNamed.kindAt?_eq_function_iff
  refine ⟨?_, ?_, ?_⟩
  · obtain ⟨kind, hkind, hiff⟩ := hkinds [1] ⟨⟨"identifier", true, 0, 0, 0, 0, some "name"⟩, .empty⟩ rfl
    have hnone : twiceNamed.below.NoneBefore 1 "name" := by
      intro earlier hlt elder helder
      obtain rfl : earlier = 0 := Nat.lt_one_iff.mp hlt
      obtain rfl := Option.some.inj helder
      nofun
    have hcallee : twiceNamed.IsCallee [1] :=
      ⟨[], 1, twiceNamed, _, "name", rfl, rfl, rfl, .definition (by decide), rfl, hnone⟩
    rw [hkind, hiff.mpr ⟨rfl, by decide, hcallee⟩]
  · exact hbehind [] 1 2 _ _ (by decide) rfl rfl rfl
  · exact hanonymous [0] _ rfl rfl

end CodeMarkup
