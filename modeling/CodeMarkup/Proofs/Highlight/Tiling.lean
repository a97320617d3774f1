import Mathlib.Data.List.Basic
import CodeMarkup.Proofs.Highlight.Outermost
import CodeMarkup.Proofs.Markup.Slicing

/-!
# The spans of one node

A node is cut into spans row by row, and each span is pushed onto the line of its row. The start of the row and the
line are looked up by index, and an index might be out of range. It never is, whatever rows and bytes the node claims
for itself, since the rows end where the lines do (`Node.add?_eq`), and adding node after node makes the spans of
`highlight` (`collect?_eq`).

Of a node that fits the text no byte is lost at a line end and none comes twice: its spans, put back at the starts of
their lines, **tile** the node. For the lines tile the text (`Text.tiles_bounds`), what a node that fits reaches of a
line is the line clipped to the node (`Node.map_range_piece?`), and clipping a tiling tiles what it is clipped to
(`Tiles.clip`).
-/

namespace CodeMarkup

/-! ## Tilings -/

/-- Whether ranges follow each other without a gap, the first from `low` on and the last up to `high`. -/
def Tiles (low high : Nat) : List (Nat × Nat) → Prop
  | [] => low = high
  | (start, stop) :: rest => start = low ∧ start ≤ stop ∧ Tiles stop high rest

theorem Tiles.le {low high : Nat} {ranges : List (Nat × Nat)} (h : Tiles low high ranges) : low ≤ high := by
  induction ranges generalizing low with
  | nil => exact Nat.le_of_eq h
  | cons range rest ih =>
    obtain ⟨rfl, hle, hrest⟩ := h
    exact Nat.le_trans hle (ih hrest)

/-- Together, ranges that tile hold what lies between their bounds. -/
theorem Tiles.exists_mem_iff {low high : Nat} {ranges : List (Nat × Nat)} (h : Tiles low high ranges) (byte : Nat) :
    (∃ range ∈ ranges, range.1 ≤ byte ∧ byte < range.2) ↔ low ≤ byte ∧ byte < high := by
  induction ranges generalizing low with
  | nil =>
    obtain rfl : low = high := h
    simp only [List.not_mem_nil, false_and, exists_false, false_iff]
    omega
  | cons range rest ih =>
    obtain ⟨rfl, hle, hrest⟩ := h
    have hhigh := hrest.le
    rw [List.exists_mem_cons_iff, ih hrest]
    omega

/-- A range without what lies outside two bounds, unless nothing is left of it. -/
def clip? (low high : Nat) (range : Nat × Nat) : Option (Nat × Nat) :=
  if max low range.1 < min high range.2 then some (max low range.1, min high range.2) else none

/-- **Clipping a tiling tiles what it is clipped to.** -/
theorem Tiles.clip {low high first last : Nat} {ranges : List (Nat × Nat)} (h : Tiles first last ranges)
    (hle : low ≤ high) :
    Tiles (max low (min high first)) (max low (min high last)) (ranges.filterMap (clip? low high)) := by
  induction ranges generalizing first with
  | nil =>
    obtain rfl : first = last := h
    rfl
  | cons range rest ih =>
    obtain ⟨start, stop⟩ := range
    obtain ⟨rfl, hrange, hrest⟩ := h
    have hrest := ih hrest
    by_cases hleft : max low start < min high stop
    · have hclip : clip? low high (start, stop) = some (max low start, min high stop) := if_pos hleft
      have hstart : max low start = max low (min high start) := by omega
      have hstop : max low (min high stop) = min high stop := by omega
      rw [List.filterMap_cons_some hclip]
      rw [hstop] at hrest
      exact ⟨hstart, hleft.le, hrest⟩
    · have hclip : clip? low high (start, stop) = none := if_neg hleft
      have hsame : max low (min high start) = max low (min high stop) := by omega
      rw [List.filterMap_cons_none hclip, hsame]
      exact hrest

/-! ## Lines -/

/-- Lines with the newlines that end them. No newline ends the last. -/
def Text.terminated : List (List Char) → List (List Char)
  | [] => []
  | [last] => [last]
  | line :: next :: rest => (line ++ ['\n']) :: terminated (next :: rest)

/-- The bounds of the lines of a text. -/
def Text.bounds (text : List Char) : List LineBounds :=
  lineBounds 0 (byteLength text) (lineStarts text)

theorem Text.length_bounds (text : List Char) : (bounds text).length = (lines text).length := by
  rw [bounds, length_lineBounds, length_lineStarts, length_lines]

theorem Text.getElem?_bounds {text : List Char} {row : Nat} {line : LineBounds} :
    (bounds text)[row]? = some line ↔
      ∃ start, (lineStarts text)[row]? = some start ∧ line = ⟨row, start, lineStop text row⟩ := by
  rw [bounds, getElem?_lineBounds, Nat.zero_add, Option.map_eq_some_iff]
  exact exists_congr fun start => and_congr_right fun _ => eq_comm

theorem Text.terminated_cons_of_ne {c : Char} (h : c ≠ '\n') (rest : List Char) :
    ∃ piece others, terminated (lines rest) = piece :: others ∧
      terminated (lines (c :: rest)) = (c :: piece) :: others := by
  obtain ⟨piece, others, hsplit, hcons⟩ := split_cons_of_ne h rest
  rw [lines, lines, hsplit, hcons]
  rcases others with _ | ⟨next, others⟩
  · exact ⟨piece, [], rfl, rfl⟩
  · exact ⟨piece ++ ['\n'], terminated (next :: others), rfl, rfl⟩

/-- The lines from the start of a line on, when the first byte of a text is at `offset`, past that start or on it: they
tile the bytes up to the end of the text, and are as long as the lines of the text, the first of which has the bytes
before the text in front. -/
theorem Text.lineBounds_laterStarts (text : List Char) (row : Nat) {start offset : Nat} (h : start ≤ offset) :
    let bounds := lineBounds row (offset + byteLength text) (start :: laterStarts offset text)
    Tiles start (offset + byteLength text) (bounds.map fun line => (line.start, line.stop)) ∧
      ∃ piece others, terminated (lines text) = piece :: others ∧
        (bounds.map fun line => line.stop - line.start)
          = (offset - start + byteLength piece) :: others.map byteLength := by
  induction text generalizing row start offset with
  | nil => exact ⟨⟨rfl, h, rfl⟩, [], [], rfl, rfl⟩
  | cons c rest ih =>
    rw [byteLength_cons, ← Nat.add_assoc]
    by_cases hnewline : c = '\n'
    · subst hnewline
      have hsize : ('\n' : Char).utf8Size = 1 := rfl
      obtain ⟨htiles, piece, others, hlines, hlengths⟩ :=
        ih (row + 1) (Nat.le_refl (offset + ('\n' : Char).utf8Size))
      have hfirst : terminated (lines ('\n' :: rest)) = ['\n'] :: terminated (lines rest) := by
        obtain ⟨line, lines, hsplit⟩ := List.exists_cons_of_ne_nil (split_ne_nil '\n' rest)
        rw [Text.lines, Text.lines, split, if_pos rfl, hsplit]
        rfl
      rw [laterStarts, if_pos rfl, lineBounds]
      refine ⟨⟨rfl, by dsimp only; omega, htiles⟩, ['\n'], terminated (lines rest), hfirst, ?_⟩
      rw [List.map_cons, hlengths, hlines, List.map_cons, Nat.sub_self, Nat.zero_add]
      congr 1
      simp only [byteLength_cons, byteLength_nil]
      omega
    · have hlater : start ≤ offset + c.utf8Size := Nat.le_trans h (Nat.le_add_right offset c.utf8Size)
      obtain ⟨htiles, piece, others, hlines, hlengths⟩ := ih row hlater
      obtain ⟨_, _, hsplit, hcons⟩ := terminated_cons_of_ne hnewline rest
      obtain ⟨rfl, rfl⟩ := List.cons.inj (hlines.symm.trans hsplit)
      rw [laterStarts, if_neg hnewline]
      refine ⟨htiles, c :: piece, others, hcons, ?_⟩
      rw [hlengths, byteLength_cons]
      congr 1
      omega

/-- **The lines of a text tile it.** -/
theorem Text.tiles_bounds (text : List Char) :
    Tiles 0 (byteLength text) ((bounds text).map fun line => (line.start, line.stop)) := by
  have htiles := (lineBounds_laterStarts text 0 (Nat.le_refl 0)).1
  rwa [Nat.zero_add] at htiles

/-- From its start to its stop, a line has its bytes and that of its newline. -/
theorem Text.byteLength_terminated {text : List Char} {row : Nat} {line : LineBounds} {content : List Char}
    (hline : (bounds text)[row]? = some line) (hcontent : (terminated (lines text))[row]? = some content) :
    line.stop - line.start = byteLength content := by
  obtain ⟨-, piece, others, hlines, hlengths⟩ := lineBounds_laterStarts text 0 (Nat.le_refl 0)
  rw [Nat.zero_add, Nat.sub_zero, Nat.zero_add, ← List.map_cons, ← hlines] at hlengths
  have hlength := congrArg (·[row]?) hlengths
  rw [List.getElem?_map, List.getElem?_map, hcontent] at hlength
  have hbounds : (lineBounds 0 (byteLength text) (0 :: laterStarts 0 text))[row]? = some line := hline
  rw [hbounds] at hlength
  exact Option.some.inj hlength

/-! ## The pieces of a node -/

/-- The piece that a node puts on a line, if it reaches the line and covers something there. -/
def Node.piece? (kind : Kind) (node : Node) (line : LineBounds) : Option Span :=
  if node.startRow ≤ line.row ∧ line.row ≤ node.stopRow then
    let (start, stop) := node.reach line
    if start < stop then some ⟨start, stop, kind⟩ else none
  else none

/-- What a node puts on each line of a text. -/
def Node.pieces (text : List Char) (kind : Kind) (node : Node) : List (Option Span) :=
  (Text.bounds text).map (node.piece? kind)

/-- The bytes under a span of a line. -/
def Span.range (line : LineBounds) (span : Span) : Nat × Nat :=
  (line.start + span.start, line.start + span.stop)

/-- The bytes under the pieces of a node, line after line. -/
def Node.ranges (text : List Char) (kind : Kind) (node : Node) : List (Nat × Nat) :=
  (Text.bounds text).filterMap fun line => (node.piece? kind line).map (Span.range line)

/-- The spans of a line are the pieces of the nodes that carry a colour. -/
theorem Classified.spanOn_eq (line : LineBounds) (item : Classified) :
    item.spanOn line = if item.carries then item.node.piece? item.kind line else none := by
  unfold spanOn Node.piece?
  by_cases hcarries : item.carries <;> simp [hcarries]

theorem Node.start_lt_stop_of_piece? {kind : Kind} {node : Node} {line : LineBounds} {span : Span}
    (h : node.piece? kind line = some span) : span.start < span.stop ∧ span.kind = kind := by
  unfold piece? at h
  split at h
  · dsimp only at h
    split at h
    · cases h
      exact ⟨‹_›, rfl⟩
    · cases h
  · cases h

/-- An offset in a row or an earlier one is not after the end of the line. -/
theorem le_lineStop_of_rowAt_le {text : List Char} {row offset : Nat} (h : Text.rowAt text offset ≤ row)
    (hoffset : offset ≤ Text.byteLength text) : offset ≤ lineStop text row := by
  unfold lineStop
  rcases hnext : (Text.lineStarts text)[row + 1]? with _ | next
  · exact hoffset
  · have := Text.le_rowAt_iff hnext offset
    simp only [Option.getD_some]
    omega

section Fits

variable {text : List Char} {kind : Kind} {node : Node} {row start : Nat}

/-- On a row of its own, a node that fits reaches its part of the line. -/
theorem Node.Fits.add_reach (h : node.Fits text) (hstop : node.stop ≤ Text.byteLength text)
    (hstart : (Text.lineStarts text)[row]? = some start) (hrow : node.startRow ≤ row ∧ row ≤ node.stopRow) :
    start + (node.reach ⟨row, start, lineStop text row⟩).1 = max node.start start ∧
      start + (node.reach ⟨row, start, lineStop text row⟩).2 = max start (min node.stop (lineStop text row)) := by
  have hfirst := Text.le_rowAt_iff hstart node.start
  have hlast := Text.le_rowAt_iff hstart node.stop
  have hlater : row < Text.rowAt text node.stop → lineStop text row ≤ node.stop := lineStop_le_of_lt_rowAt
  have hends : Text.rowAt text node.stop ≤ row → node.stop ≤ lineStop text row :=
    fun hle => le_lineStop_of_rowAt_le hle hstop
  rw [← h.startRow] at hfirst
  rw [← h.stopRow] at hlast hlater hends
  simp only [reach]
  constructor
  · split <;> omega
  · split <;> omega

/-- The line of any other row lies outside the node. -/
theorem Node.Fits.outside (h : node.Fits text) (hstart : (Text.lineStarts text)[row]? = some start)
    (hrow : ¬ (node.startRow ≤ row ∧ row ≤ node.stopRow)) :
    ¬ max node.start start < min node.stop (lineStop text row) := by
  have hlast := Text.le_rowAt_iff hstart node.stop
  have hlater : row < Text.rowAt text node.start → lineStop text row ≤ node.start := lineStop_le_of_lt_rowAt
  rw [← h.startRow] at hlater
  rw [← h.stopRow] at hlast
  omega

/-- **What a node that fits puts on a line is the line clipped to the node.** -/
theorem Node.Fits.map_range_piece? (h : node.Fits text) (hstop : node.stop ≤ Text.byteLength text)
    {line : LineBounds} (hline : (Text.bounds text)[row]? = some line) :
    (node.piece? kind line).map (Span.range line) = clip? node.start node.stop (line.start, line.stop) := by
  obtain ⟨start, hstart, rfl⟩ := Text.getElem?_bounds.mp hline
  simp only [piece?, clip?]
  by_cases hrow : node.startRow ≤ row ∧ row ≤ node.stopRow
  · obtain ⟨hfirst, hlast⟩ := h.add_reach hstop hstart hrow
    rw [if_pos hrow]
    by_cases hleft : max node.start start < min node.stop (lineStop text row)
    · have hsame : max start (min node.stop (lineStop text row)) = min node.stop (lineStop text row) := by omega
      rw [if_pos (by omega), if_pos hleft, Option.map_some, Span.range, hfirst, hlast, hsame]
    · rw [if_neg (by omega), if_neg hleft, Option.map_none]
  · rw [if_neg hrow, if_neg (h.outside hstart hrow), Option.map_none]

/-- The pieces of a node that fits tile it. -/
theorem Node.Fits.tiles (h : node.Fits text) (hstop : node.stop ≤ Text.byteLength text) :
    Tiles node.start node.stop (node.ranges text kind) := by
  have hranges : node.ranges text kind =
      ((Text.bounds text).map fun line => (line.start, line.stop)).filterMap (clip? node.start node.stop) := by
    rw [List.filterMap_map]
    refine List.filterMap_congr fun line hm => ?_
    obtain ⟨row, hline⟩ := List.getElem?_of_mem hm
    exact h.map_range_piece? hstop hline
  have hle := h.le
  have hlow : max node.start (min node.stop 0) = node.start := by omega
  have hhigh : max node.start (min node.stop (Text.byteLength text)) = node.stop := by omega
  have htiles := (Text.tiles_bounds text).clip hle
  rwa [← hranges, hlow, hhigh] at htiles

/-- A piece of a node that fits ends on its line. -/
theorem Node.Fits.stop_le_of_piece? (h : node.Fits text) (hstop : node.stop ≤ Text.byteLength text)
    {line : LineBounds} {span : Span} (hline : (Text.bounds text)[row]? = some line)
    (hpiece : node.piece? kind line = some span) : span.stop ≤ line.stop - line.start := by
  have hclip := @map_range_piece? text kind node row h hstop line hline
  rw [hpiece, Option.map_some, clip?] at hclip
  split at hclip
  · have hrange := Prod.mk.inj (Option.some.inj hclip)
    dsimp only at hrange
    omega
  · cases hclip

end Fits

/-! ## Row by row -/

/-- Spans with what a node puts on the line of a row. The start of the row and the line are looked up by index, and
either might be out of range. -/
def Node.addRow? (text : List Char) (kind : Kind) (node : Node) (row : Nat) (lines : List (List Span)) :
    Option (List (List Span)) := do
  let start ← (Text.lineStarts text)[row]?
  let (first, last) := node.reach ⟨row, start, lineStop text row⟩
  if first < last then
    let spans ← lines[row]?
    return lines.set row (spans ++ [⟨first, last, kind⟩])
  else return lines

/-- Spans with what a node puts on the lines of some rows, up to the first row that has no line. -/
def Node.addRows? (text : List Char) (kind : Kind) (node : Node) :
    List Nat → List (List Span) → Option (List (List Span))
  | [], lines => some lines
  | row :: rows, lines =>
    if lines.length ≤ row then some lines
    else do
      let lines ← node.addRow? text kind row lines
      addRows? text kind node rows lines

/-- Spans of the lines of a text with what a node puts on them, from its first row to its last. -/
def Node.add? (text : List Char) (kind : Kind) (node : Node) (lines : List (List Span)) :
    Option (List (List Span)) :=
  node.addRows? text kind (List.range' node.startRow (node.stopRow + 1 - node.startRow)) lines

/-- The spans of every line of a text, added node by node in pre-order. -/
def collect? (tree : Tree) (text : List Char) : Option (List (List Span)) :=
  tree.classify.foldlM
    (fun lines item => if item.carries then item.node.add? text item.kind lines else some lines)
    (List.replicate (Text.lineStarts text).length [])

section Rows

variable {text : List Char} {kind : Kind} {node : Node} {lines : List (List Span)}

/-- **On a row that has a line, no look-up fails**, and the line gets what the node puts on it. -/
theorem Node.addRow?_eq {row : Nat} {spans : List Span} {line : LineBounds} (hspans : lines[row]? = some spans)
    (hline : (Text.bounds text)[row]? = some line) (hrow : node.startRow ≤ row ∧ row ≤ node.stopRow) :
    node.addRow? text kind row lines = some (lines.set row (spans ++ (node.piece? kind line).toList)) := by
  obtain ⟨start, hstart, rfl⟩ := Text.getElem?_bounds.mp hline
  rw [addRow?, hstart, hspans, piece?, if_pos hrow]
  dsimp only [Option.bind_eq_bind, Option.bind_some]
  split
  · rfl
  · have hsame : lines.set row spans = lines := by
      obtain ⟨hlt, rfl⟩ := List.getElem?_eq_some_iff.mp hspans
      exact List.set_getElem_self hlt
    rw [Option.toList_none, List.append_nil, hsame]
    rfl

/-- Over rows in ascending order, each line whose row is among them gets what the node puts on it. -/
theorem Node.addRows?_eq {rows : List Nat} (hsorted : rows.Pairwise (· < ·))
    (hrows : ∀ row ∈ rows, node.startRow ≤ row ∧ row ≤ node.stopRow)
    (hlines : lines.length = (Text.bounds text).length) :
    node.addRows? text kind rows lines = some (lines.mapIdx fun index spans =>
      if index ∈ rows then spans ++ ((node.pieces text kind)[index]?.getD none).toList else spans) := by
  induction rows generalizing lines with
  | nil =>
    rw [addRows?]
    congr 1
    refine List.ext_getElem? fun index => ?_
    simp
  | cons row rows ih =>
    obtain ⟨hfirst, hsorted⟩ := List.pairwise_cons.mp hsorted
    rw [addRows?]
    split
    · rename_i hpast
      congr 1
      refine List.ext_getElem? fun index => ?_
      rw [List.getElem?_mapIdx]
      rcases hspans : lines[index]? with _ | spans
      · rfl
      · -- a row that has a line comes before this row, and hence before the rows after it
        have hindex : index < row := Nat.lt_of_lt_of_le (List.getElem?_eq_some_iff.mp hspans).1 hpast
        have hnone : index ∉ row :: rows := by
          rw [List.mem_cons, not_or]
          exact ⟨Nat.ne_of_lt hindex, fun hm => Nat.lt_asymm hindex (hfirst index hm)⟩
        rw [Option.map_some, if_neg hnone]
    · rename_i hlt
      have hspans : lines[row]? = some lines[row] := List.getElem?_eq_getElem (by omega)
      have hline : (Text.bounds text)[row]? = some (Text.bounds text)[row] := List.getElem?_eq_getElem (by omega)
      have hpiece : (node.pieces text kind)[row]? = some (node.piece? kind (Text.bounds text)[row]) := by
        rw [pieces, List.getElem?_map, hline, Option.map_some]
      rw [addRow?_eq hspans hline (hrows row List.mem_cons_self), Option.bind_eq_bind, Option.bind_some,
        ih hsorted (fun row hm => hrows row (List.mem_cons_of_mem _ hm)) (by rw [List.length_set, hlines])]
      congr 1
      refine List.ext_getElem? fun index => ?_
      rw [List.getElem?_mapIdx, List.getElem?_mapIdx]
      by_cases hindex : row = index
      · subst hindex
        have hnone : row ∉ rows := fun hm => Nat.lt_irrefl row (hfirst row hm)
        rw [List.getElem?_set_self (by omega), hspans, Option.map_some, Option.map_some, if_neg hnone,
          if_pos List.mem_cons_self, hpiece, Option.getD_some]
      · have hmem : index ∈ row :: rows ↔ index ∈ rows := by
          rw [List.mem_cons, or_iff_right (Ne.symm hindex)]
        simp only [List.getElem?_set_ne hindex, hmem]

/-- **No look-up fails when a node is added**, whatever rows it claims, and each line gets what the node puts on it. -/
theorem Node.add?_eq (hlines : lines.length = (Text.bounds text).length) :
    node.add? text kind lines =
      some (List.zipWith (fun spans piece => spans ++ piece.toList) lines (node.pieces text kind)) := by
  have hrows : ∀ row ∈ List.range' node.startRow (node.stopRow + 1 - node.startRow),
      node.startRow ≤ row ∧ row ≤ node.stopRow := by
    intro row hm
    rw [List.mem_range'_1] at hm
    omega
  rw [add?, addRows?_eq List.pairwise_lt_range' hrows hlines]
  congr 1
  refine List.ext_getElem? fun row => ?_
  rw [List.getElem?_mapIdx, List.getElem?_zipWith, pieces, List.getElem?_map]
  rcases hspans : lines[row]? with _ | spans
  · rfl
  · have hlt : row < lines.length := (List.getElem?_eq_some_iff.mp hspans).1
    have hline : (Text.bounds text)[row]? = some (Text.bounds text)[row] := List.getElem?_eq_getElem (by omega)
    rw [hline, Option.map_some, Option.map_some, Option.getD_some]
    split
    · rfl
    · rename_i hoff
      obtain ⟨start, -, hbounds⟩ := Text.getElem?_bounds.mp hline
      have hnone : node.piece? kind (Text.bounds text)[row] = none := by
        rw [hbounds]
        refine if_neg fun (hrow : node.startRow ≤ row ∧ row ≤ node.stopRow) => hoff ?_
        rw [List.mem_range'_1]
        omega
      simp only [hnone, Option.toList_none, List.append_nil]

/-- A node of another text: its last rows have no line, and its last bytes no place on the line there is. -/
example :
    Node.add? "ab".toList .comment ⟨"comment", true, 1, 9, 0, 3, none⟩ [[]] = some [[⟨1, 2, .comment⟩]] := by
  decide

end Rows

/-- Nodes added one after another to the lines of a text. -/
theorem foldlM_add?_eq (text : List Char) (items : List Classified) (spans : LineBounds → List Span) :
    items.foldlM (fun lines item => if item.carries then item.node.add? text item.kind lines else some lines)
        ((Text.bounds text).map spans)
      = some ((Text.bounds text).map fun line => spans line ++ items.filterMap (Classified.spanOn line)) := by
  induction items generalizing spans with
  | nil => simp
  | cons item items ih =>
    have hitem : (if item.carries then item.node.add? text item.kind ((Text.bounds text).map spans)
        else some ((Text.bounds text).map spans))
        = some ((Text.bounds text).map fun line => spans line ++ (item.spanOn line).toList) := by
      by_cases hcarries : item.carries
      · rw [if_pos hcarries, Node.add?_eq (List.length_map _), Node.pieces, List.zipWith_map, List.zipWith_self]
        simp only [Classified.spanOn_eq, if_pos hcarries]
      · rw [if_neg hcarries]
        simp only [Classified.spanOn_eq, if_neg hcarries, Option.toList_none, List.append_nil]
    have hcons : ∀ line, (item :: items).filterMap (Classified.spanOn line)
        = (item.spanOn line).toList ++ items.filterMap (Classified.spanOn line) := by
      intro line
      cases hspan : item.spanOn line with
      | none => rw [List.filterMap_cons_none hspan, Option.toList_none, List.nil_append]
      | some span => rw [List.filterMap_cons_some hspan, Option.toList_some, List.singleton_append]
    rw [List.foldlM_cons, hitem, Option.bind_eq_bind, Option.bind_some, ih]
    simp only [List.append_assoc, hcons]

/-- **No look-up fails when the nodes of a tree are added**, and they make its spans. -/
theorem collect?_eq (tree : Tree) (text : List Char) : collect? tree text = some (highlight tree text) := by
  have hempty : List.replicate (Text.lineStarts text).length [] = (Text.bounds text).map fun _ => ([] : List Span) := by
    rw [List.map_const', Text.bounds, length_lineBounds]
  rw [collect?, hempty, foldlM_add?_eq]
  rfl

/-! ## What a node adds -/

/-- **A node adds its pieces, which tile it.** To the lines of a text a node adds at most one span each, and every span
is of its kind and not empty; no look-up fails, whichever rows and bytes the node claims, so that any tree can be laid
over any text. Of a node that fits the text, each span ends on its line, newline included, and at the starts of their
lines the spans abut and cover the bytes of the node. -/
theorem Node.add?_tiles (text : List Char) (kind : Kind) (node : Node) {lines : List (List Span)}
    (hlines : lines.length = (Text.lines text).length) :
    (node.pieces text kind).length = lines.length ∧
    node.add? text kind lines =
      some (List.zipWith (fun spans piece => spans ++ piece.toList) lines (node.pieces text kind)) ∧
    (∀ tree, collect? tree text = some (highlight tree text)) ∧
    (∀ span, some span ∈ node.pieces text kind → span.start < span.stop ∧ span.kind = kind) ∧
    (node.Fits text → node.stop ≤ Text.byteLength text →
      (∀ (row : Nat) (content : List Char) (span : Span), (Text.terminated (Text.lines text))[row]? = some content →
        (node.pieces text kind)[row]? = some (some span) → span.stop ≤ Text.byteLength content) ∧
      Tiles node.start node.stop (node.ranges text kind) ∧
      ∀ byte, (∃ range ∈ node.ranges text kind, range.1 ≤ byte ∧ byte < range.2) ↔
        node.start ≤ byte ∧ byte < node.stop) := by
  have hbounds : lines.length = (Text.bounds text).length := hlines.trans (Text.length_bounds text).symm
  refine ⟨by rw [pieces, List.length_map, hbounds], add?_eq hbounds, fun tree => collect?_eq tree text, ?_, ?_⟩
  · intro span hm
    obtain ⟨line, -, hpiece⟩ := List.mem_map.mp hm
    exact start_lt_stop_of_piece? hpiece
  · intro hfits hstop
    refine ⟨fun row content span hcontent hpiece => ?_, hfits.tiles hstop, (hfits.tiles hstop).exists_mem_iff⟩
    rw [pieces, List.getElem?_map, Option.map_eq_some_iff] at hpiece
    obtain ⟨line, hline, hpiece⟩ := hpiece
    rw [← Text.byteLength_terminated hline hcontent]
    exact hfits.stop_le_of_piece? hstop hline hpiece

/-- The comment of `notedText` begins on one line and ends on the next. -/
theorem Node.add?_tiles_noted :
    (Text.lines notedText).length = 2 ∧
      Tiles 0 9 (Node.ranges notedText .comment ⟨"comment", true, 0, 9, 0, 1, none⟩) ∧
      Node.add? notedText .comment ⟨"comment", true, 0, 9, 0, 1, none⟩ [[], []]
        = some [[⟨0, 5, .comment⟩], [⟨0, 4, .comment⟩]] := by
  have hlines : [[], ([] : List Span)].length = (Text.lines notedText).length := by decide
  obtain ⟨-, hadd, -, -, hfits⟩ :=
    Node.add?_tiles notedText .comment ⟨"comment", true, 0, 9, 0, 1, none⟩ hlines
  obtain ⟨-, htiles, -⟩ := hfits (by decide) (by decide)
  refine ⟨by decide, htiles, hadd.trans ?_⟩
  decide

end CodeMarkup
