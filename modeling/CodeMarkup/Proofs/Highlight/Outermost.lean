import Mathlib.Data.List.Find
import CodeMarkup.Highlight.Span
import CodeMarkup.Proofs.Text.Row

/-!
# The outermost node over a byte

A syntax tree **fits** a text if its nodes lie in the text and in each other, siblings in order and apart,
and if the rows of every node are the rows of its bytes. Then the spans of a line colour every byte by
the outermost of the nodes over it that carry a colour (`kindAt_highlight`).

The proof has two halves. On a line, a node covers a column through its span exactly when it is over the
byte there (`any_covers_spanOn`). This is where clipping at line ends comes in, and `Text.le_rowAt_iff` is
all it needs to know of the text. And in pre-order, the first node over a byte that carries a colour is
the outermost (`Forest.find?_classify_iff`), since of two siblings at most one is over it.
-/

namespace CodeMarkup

/-! ## Trees that fit a text -/

/-- The bytes of a node are in order, and its rows are the rows of its bytes. -/
structure Node.Fits (text : List Char) (node : Node) : Prop where
  le : node.start ≤ node.stop
  startRow : node.startRow = Text.rowAt text node.start
  stopRow : node.stopRow = Text.rowAt text node.stop

instance (text : List Char) (node : Node) : Decidable (node.Fits text) :=
  decidable_of_iff
    (node.start ≤ node.stop ∧ node.startRow = Text.rowAt text node.start
      ∧ node.stopRow = Text.rowAt text node.stop)
    ⟨fun h => ⟨h.1, h.2.1, h.2.2⟩, fun h => ⟨h.le, h.startRow, h.stopRow⟩⟩

/-- The nodes of a forest lie between two bytes, each sibling after the one before it, and the forest
below a node lies inside that node. -/
def Forest.Fits (text : List Char) : (low high : Nat) → Forest → Prop
  | _, _, .empty => True
  | low, high, .plant node below after =>
    low ≤ node.start ∧ node.stop ≤ high ∧ node.Fits text ∧
      below.Fits text node.start node.stop ∧ after.Fits text node.stop high

instance Forest.decidableFits (text : List Char) :
    (low high : Nat) → (forest : Forest) → Decidable (forest.Fits text low high)
  | _, _, .empty => inferInstanceAs (Decidable True)
  | _, high, .plant node below after =>
    have := decidableFits text node.start node.stop below
    have := decidableFits text node.stop high after
    inferInstanceAs (Decidable (_ ∧ _))

/-- A tree with its root, as a forest. -/
def Tree.forest (tree : Tree) : Forest := .plant tree.root tree.below .empty

/-- A tree that lies in a text. -/
def Tree.Fits (text : List Char) (tree : Tree) : Prop :=
  tree.forest.Fits text 0 (Text.byteLength text)

instance (text : List Char) (tree : Tree) : Decidable (tree.Fits text) :=
  inferInstanceAs (Decidable (Forest.Fits ..))

theorem Tree.classify_eq (tree : Tree) : tree.classify = tree.forest.classify none := by
  simp [classify, forest, Forest.classify, Node.fills]

/-! ## Nodes and what they lie in -/

/-- A node at the top of a forest, with its kind. -/
def Node.classified (node : Node) (awaited : Option String) (below : Forest) : Classified :=
  ⟨node, node.kind (node.fills awaited), below.isEmpty⟩

/-- A forest leads to a node through the nodes that it lies in, outermost first. -/
inductive Forest.Leads : Option String → Forest → List Classified → Classified → Prop where
  /-- to a node at the top -/
  | here {awaited : Option String} {node : Node} {below after : Forest} :
    Leads awaited (.plant node below after) [] (node.classified awaited below)
  /-- to a node below one at the top -/
  | down {awaited : Option String} {node : Node} {below after : Forest} {outer : List Classified}
      {item : Classified} (h : Leads (Kind.calleeField? node.name) below outer item) :
    Leads awaited (.plant node below after) (node.classified awaited below :: outer) item
  /-- to a node among later siblings, or below one of them -/
  | along {awaited : Option String} {node : Node} {below after : Forest} {outer : List Classified}
      {item : Classified} (h : Leads (if node.fills awaited then none else awaited) after outer item) :
    Leads awaited (.plant node below after) outer item

/-- Whether a node is over a byte. -/
def Node.isOver (node : Node) (byte : Nat) : Bool :=
  node.start ≤ byte && byte < node.stop

/-- Whether a node carries a colour and is over a byte. -/
def Classified.colours (item : Classified) (byte : Nat) : Bool :=
  item.carries && item.node.isOver byte

/-- The node carries a colour and is over the byte, and no node that it lies in is such a node. -/
def Forest.Outermost (awaited : Option String) (forest : Forest) (byte : Nat) (item : Classified) :
    Prop :=
  ∃ outer, forest.Leads awaited outer item ∧ item.colours byte = true ∧
    ∀ other ∈ outer, other.colours byte = false

/-- The outermost of the nodes of a tree that carry a colour and are over a byte. -/
def Tree.Outermost (tree : Tree) (byte : Nat) (item : Classified) : Prop :=
  tree.forest.Outermost none byte item

theorem Node.isOver_iff {node : Node} {byte : Nat} :
    node.isOver byte = true ↔ node.start ≤ byte ∧ byte < node.stop := by
  simp [isOver]

theorem Classified.isOver_of_colours {item : Classified} {byte : Nat} (h : item.colours byte = true) :
    item.node.start ≤ byte ∧ byte < item.node.stop := by
  simp only [colours, Bool.and_eq_true] at h
  exact Node.isOver_iff.mp h.2

theorem Forest.classify_plant (awaited : Option String) (node : Node) (below after : Forest) :
    (Forest.plant node below after).classify awaited =
      node.classified awaited below ::
        (below.classify (Kind.calleeField? node.name)
          ++ after.classify (if node.fills awaited then none else awaited)) :=
  rfl

/-! ## The first in pre-order is the outermost -/

section Forest

variable {text : List Char} {low high byte : Nat} {awaited : Option String} {forest : Forest}
  {item : Classified}

theorem Forest.Leads.mem {outer : List Classified} (h : forest.Leads awaited outer item) :
    item ∈ forest.classify awaited := by
  induction h with
  | here => exact List.mem_cons_self ..
  | down _ ih => exact List.mem_cons_of_mem _ (List.mem_append_left _ ih)
  | along _ ih => exact List.mem_cons_of_mem _ (List.mem_append_right _ ih)

/-- A byte that a forest's node is over lies between the bounds of the forest. -/
theorem Forest.Fits.between (h : forest.Fits text low high) (hm : item ∈ forest.classify awaited)
    (hover : item.node.start ≤ byte ∧ byte < item.node.stop) : low ≤ byte ∧ byte < high := by
  induction forest generalizing awaited low high with
  | empty => cases hm
  | plant node below after ihb iha =>
    obtain ⟨hlow, hhigh, hnode, hbelow, hafter⟩ := h
    have hle := hnode.le
    rw [classify_plant, List.mem_cons, List.mem_append] at hm
    rcases hm with rfl | hm | hm
    · simp only [Node.classified] at hover
      omega
    · have := ihb hbelow hm
      omega
    · have := iha hafter hm
      omega

/-- Nothing below a node colours a byte that the node is not over. -/
theorem Forest.Fits.find?_eq_none (h : forest.Fits text low high) (hbyte : byte < low ∨ high ≤ byte) :
    (forest.classify awaited).find? (·.colours byte) = none := by
  rw [List.find?_eq_none]
  intro item hm hcolours
  have := h.between hm (Classified.isOver_of_colours hcolours)
  omega

/-- In a forest that fits, the outermost node comes first. -/
theorem Forest.Fits.find?_of_outermost (h : forest.Fits text low high)
    (ho : forest.Outermost awaited byte item) :
    (forest.classify awaited).find? (·.colours byte) = some item := by
  obtain ⟨outer, hleads, hcolours, houter⟩ := ho
  induction hleads generalizing low high with
  | here =>
    rw [classify_plant]
    exact List.find?_cons_of_pos hcolours
  | down hleads ih =>
    obtain ⟨-, -, -, hbelow, -⟩ := h
    simp only [List.mem_cons, forall_eq_or_imp] at houter
    rw [classify_plant, List.find?_cons_of_neg (by simp [houter.1]), List.find?_append,
      ih hbelow hcolours houter.2]
    rfl
  | along hleads ih =>
    obtain ⟨-, -, hnode, hbelow, hafter⟩ := h
    -- the byte lies past the node, which hence colours it neither by itself nor through what is below
    have hpast := hafter.between hleads.mem (Classified.isOver_of_colours hcolours)
    rw [classify_plant, List.find?_cons_of_neg, List.find?_append,
      hbelow.find?_eq_none (Or.inr hpast.1), ih hafter hcolours houter]
    · rfl
    · intro hself
      have hover := Classified.isOver_of_colours hself
      simp only [Node.classified] at hover
      omega

/-- The first node that colours a byte is outermost. -/
theorem Forest.outermost_of_find?
    (h : (forest.classify awaited).find? (·.colours byte) = some item) :
    forest.Outermost awaited byte item := by
  induction forest generalizing awaited with
  | empty => cases h
  | plant node below after ihb iha =>
    rw [classify_plant, List.find?_cons] at h
    split at h
    · rename_i hself
      obtain rfl := Option.some.inj h
      exact ⟨[], .here, hself, by simp⟩
    · rename_i hself
      rw [List.find?_append, Option.or_eq_some_iff] at h
      rcases h with h | ⟨-, h⟩
      · obtain ⟨outer, hleads, hcolours, houter⟩ := ihb h
        exact ⟨_, .down hleads, hcolours, by simpa [hself] using houter⟩
      · obtain ⟨outer, hleads, hcolours, houter⟩ := iha h
        exact ⟨outer, .along hleads, hcolours, houter⟩

/-- **In pre-order, the first node that colours a byte is the outermost.** -/
theorem Forest.Fits.find?_classify_iff (h : forest.Fits text low high) :
    (forest.classify awaited).find? (·.colours byte) = some item ↔
      forest.Outermost awaited byte item :=
  ⟨outermost_of_find?, h.find?_of_outermost⟩

end Forest

/-! ## Spans cover what their nodes are over -/

/-- The bounds of a line are its start and the next line's, or the end of the text. -/
theorem getElem?_lineBounds (row length : Nat) (starts : List Nat) (index : Nat) :
    (lineBounds row length starts)[index]? =
      starts[index]?.map fun start => ⟨row + index, start, starts[index + 1]?.getD length⟩ := by
  induction starts generalizing row index with
  | nil => simp [lineBounds]
  | cons start rest ih =>
    cases rest with
    | nil => cases index <;> simp [lineBounds]
    | cons next rest =>
      cases index with
      | zero => simp [lineBounds]
      | succ index =>
        rw [lineBounds, List.getElem?_cons_succ, ih, Nat.add_right_comm, Nat.add_assoc]
        rfl

/-- A span has the kind of its node. -/
theorem Classified.kind_of_spanOn {line : LineBounds} {item : Classified} {span : Span}
    (h : item.spanOn line = some span) : span.kind = item.kind := by
  unfold spanOn at h
  split at h
  · dsimp only at h
    split at h
    · obtain rfl := Option.some.inj h
      rfl
    · cases h
  · cases h

/-- A node's span covers the columns that the node reaches. -/
theorem Classified.any_covers_spanOn_iff {line : LineBounds} {item : Classified} {column : Nat} :
    (item.spanOn line).any (·.covers column) = true ↔
      item.carries = true ∧ (item.node.startRow ≤ line.row ∧ line.row ≤ item.node.stopRow) ∧
        (item.node.reach line).1 ≤ column ∧ column < (item.node.reach line).2 := by
  unfold spanOn
  split
  · rename_i hrow
    rw [iff_true_intro hrow.1, iff_true_intro hrow.2, true_and, true_and]
    dsimp only
    split
    · simp [Span.covers]
    · rename_i hempty
      simp only [Option.any_none, Bool.false_eq_true, false_iff]
      omega
  · rename_i hrow
    simp only [Option.any_none, Bool.false_eq_true, false_iff]
    exact fun h => hrow ⟨h.1, h.2.1⟩

section Line

variable {text : List Char} {row start column : Nat}

/-- The end of a line: the start of the next, or the length of the text. -/
def lineStop (text : List Char) (row : Nat) : Nat :=
  (Text.lineStarts text)[row + 1]?.getD (Text.byteLength text)

/-- An offset in a later row is not before the end of the line. -/
theorem lineStop_le_of_lt_rowAt {offset : Nat} (h : row < Text.rowAt text offset) :
    lineStop text row ≤ offset := by
  unfold lineStop
  rcases hnext : (Text.lineStarts text)[row + 1]? with _ | next
  · have := Text.rowAt_lt_of_none hnext offset
    omega
  · exact (Text.le_rowAt_iff hnext offset).mp h

/-- **On its line, a node covers a column through its span iff it is over the byte there.** -/
theorem Classified.any_covers_spanOn (hstart : (Text.lineStarts text)[row]? = some start)
    (hcolumn : start + column < lineStop text row) {item : Classified}
    (hfits : item.node.Fits text) :
    (item.spanOn ⟨row, start, lineStop text row⟩).any (·.covers column)
      = item.colours (start + column) := by
  -- where the node's ends stand to the ends of the line, by their rows
  have hfirst := Text.le_rowAt_iff hstart item.node.start
  have hlast := Text.le_rowAt_iff hstart item.node.stop
  have hfirst' : row < Text.rowAt text item.node.start → lineStop text row ≤ item.node.start :=
    lineStop_le_of_lt_rowAt
  have hlast' : row < Text.rowAt text item.node.stop → lineStop text row ≤ item.node.stop :=
    lineStop_le_of_lt_rowAt
  rw [← hfits.startRow] at hfirst hfirst'
  rw [← hfits.stopRow] at hlast hlast'
  rw [Bool.eq_iff_iff, any_covers_spanOn_iff, colours, Bool.and_eq_true, Node.isOver_iff]
  refine and_congr_right fun _ => ?_
  simp only [Node.reach]
  constructor
  · rintro ⟨⟨hrow, hrow'⟩, hleft, hright⟩
    constructor
    · split at hleft <;> omega
    · split at hright <;> omega
  · rintro ⟨hleft, hright⟩
    refine ⟨⟨by omega, by omega⟩, ?_, ?_⟩
    · split <;> omega
    · split <;> omega

end Line

/-! ## The colour of a byte -/

section Forest

variable {text : List Char} {low high : Nat} {awaited : Option String} {forest : Forest}
  {item : Classified}

/-- Every node of a forest that fits, fits. -/
theorem Forest.Fits.node (h : forest.Fits text low high) (hm : item ∈ forest.classify awaited) :
    item.node.Fits text := by
  induction forest generalizing awaited low high with
  | empty => cases hm
  | plant node below after ihb iha =>
    obtain ⟨-, -, hnode, hbelow, hafter⟩ := h
    rw [classify_plant, List.mem_cons, List.mem_append] at hm
    rcases hm with rfl | hm | hm
    · exact hnode
    · exact ihb hbelow hm
    · exact iha hafter hm

end Forest

/-- The kind at a column is that of the first node that colours the byte there. -/
theorem kindAt_filterMap {items : List Classified} {line : LineBounds} {column byte : Nat}
    (h : ∀ item ∈ items, (item.spanOn line).any (·.covers column) = item.colours byte) :
    kindAt (items.filterMap (Classified.spanOn line)) column =
      ((items.find? (·.colours byte)).map Classified.kind).getD .plain := by
  rw [kindAt, List.find?_filterMap, List.find?_congr h]
  rcases hfind : items.find? (·.colours byte) with _ | item
  · rw [hfind]
    rfl
  · have hcovers := h item (List.mem_of_find?_eq_some hfind)
    rw [List.find?_some hfind, Option.any_eq_true] at hcovers
    obtain ⟨span, hspan, -⟩ := hcovers
    rw [hfind, Option.bind_some, hspan]
    exact Classified.kind_of_spanOn hspan

/-- **A byte has the colour of the outermost node over it.** Under a tree that fits the text, the kind at
a column of a line is that of the outermost of the nodes that carry a colour and are over the byte there.
If there are such nodes then one of them is outermost, and if there are none then the byte is plain. -/
theorem kindAt_highlight {tree : Tree} {text : List Char} (h : tree.Fits text)
    {row start column : Nat} (hstart : (Text.lineStarts text)[row]? = some start)
    (hcolumn : start + column < lineStop text row) :
    ∃ spans, (highlight tree text)[row]? = some spans ∧
      (∀ item, tree.Outermost (start + column) item → kindAt spans column = item.kind) ∧
      ((∃ item ∈ tree.classify, item.colours (start + column) = true) →
        ∃ item, tree.Outermost (start + column) item) ∧
      ((∀ item ∈ tree.classify, item.colours (start + column) = false) →
        kindAt spans column = .plain) := by
  have hspans : (highlight tree text)[row]? = some
      (tree.classify.filterMap (Classified.spanOn ⟨row, start, lineStop text row⟩)) := by
    rw [highlight, List.getElem?_map, getElem?_lineBounds, hstart, Option.map_some, Option.map_some,
      Nat.zero_add]
    rfl
  have hfits : ∀ item ∈ tree.classify, item.node.Fits text := by
    rw [tree.classify_eq]
    exact fun item hm => h.node hm
  have hkind := kindAt_filterMap fun item hm =>
    Classified.any_covers_spanOn hstart hcolumn (hfits item hm)
  have hfirst : ∀ item, tree.classify.find? (·.colours (start + column)) = some item ↔
      tree.Outermost (start + column) item := by
    rw [tree.classify_eq]
    exact fun item => Forest.Fits.find?_classify_iff h
  refine ⟨_, hspans, fun item ho => ?_, fun hcoloured => ?_, fun hnone => ?_⟩
  · rw [hkind, (hfirst item).mpr ho]
    rfl
  · obtain ⟨item, hfind⟩ := Option.isSome_iff_exists.mp (List.find?_isSome.mpr hcoloured)
    exact ⟨item, (hfirst item).mp hfind⟩
  · rw [hkind, List.find?_eq_none.mpr (by simpa using hnone)]
    rfl

/-- A comment over two lines, the second of which holds a name inside the comment and a number after. -/
def notedText : List Char := "/*é\nab*/1 ".toList

/-- The tree of `notedText`. -/
def noted : Tree where
  root := ⟨"source_file", true, 0, 11, 0, 1, none⟩
  below := .plant ⟨"comment", true, 0, 9, 0, 1, none⟩
    (.plant ⟨"identifier", true, 5, 7, 1, 1, none⟩ .empty .empty)
    (.plant ⟨"integer", true, 9, 10, 1, 1, none⟩ .empty .empty)

/-- The comment colours the name in it. -/
theorem kindAt_highlight_noted :
    noted.Fits notedText ∧ (Text.lineStarts notedText)[1]? = some 5 ∧ 5 + 1 < lineStop notedText 1 ∧
      ∃ spans, (highlight noted notedText)[1]? = some spans ∧ kindAt spans 1 = .comment := by
  have hfits : noted.Fits notedText := by decide
  have hstart : (Text.lineStarts notedText)[1]? = some 5 := by decide
  have hcolumn : 5 + 1 < lineStop notedText 1 := by decide
  obtain ⟨spans, hspans, houtermost, -⟩ := kindAt_highlight hfits hstart hcolumn
  refine ⟨hfits, hstart, hcolumn, spans, hspans, ?_⟩
  refine houtermost ⟨_, .comment, false⟩ ⟨_, .down .here, ?_, ?_⟩
  · decide
  · decide

example : (highlight noted notedText).map (fun spans => (List.range 6).map (kindAt spans)) =
    [[.comment, .comment, .comment, .comment, .comment, .plain],
      [.comment, .comment, .comment, .comment, .number, .plain]] := by decide

end CodeMarkup
