import CodeMarkup.Markup.Listing
import CodeMarkup.Text.Slice

/-!
# Listings by slices

A listing takes lines and tokens apart character by character. It can also be made by byte offsets alone:
a line is the slice from its start to before the next line's start, and a token is the slice from where
its kind began to where another begins. A slice may be out of range or cut a character, so making a
listing that way might fail. It never does, whatever the spans are, and it makes the same listing
(`sliced?_eq`).
-/

namespace CodeMarkup

/-! ## Lines -/

/-- The slices of a text from each start to before the next, the newline between them left out. -/
def Text.lineSlices? (text : List Char) : List Nat → Option (List (List Char))
  | [] => some []
  | [start] => do
    let line ← slice? text start (byteLength text)
    return [line]
  | start :: next :: rest =>
    -- the newline before the next start is left out, so there has to be a byte for it
    if 0 < next then do
      let line ← slice? text start (next - 1)
      let others ← lineSlices? text (next :: rest)
      return line :: others
    else none

/-- A sequence put in front of the first of some pieces. -/
theorem Text.split_cons_of_ne {separator c : Char} (h : c ≠ separator) (rest : List Char) :
    ∃ piece others, split separator rest = piece :: others ∧
      split separator (c :: rest) = (c :: piece) :: others := by
  obtain ⟨piece, others, hsplit⟩ := List.exists_cons_of_ne_nil (split_ne_nil separator rest)
  refine ⟨piece, others, hsplit, ?_⟩
  rw [split, if_neg h, hsplit]

/-- The slices from the start of a line on, of which some characters have been passed. -/
theorem Text.lineSlices?_laterStarts (before passed rest : List Char) :
    ∃ piece others, lines rest = piece :: others ∧
      lineSlices? (before ++ passed ++ rest)
        (byteLength before :: laterStarts (byteLength (before ++ passed)) rest)
        = some ((passed ++ piece) :: others) := by
  induction rest generalizing before passed with
  | nil =>
    have hslice := slice?_append before passed []
    rw [List.append_nil] at hslice
    refine ⟨[], [], rfl, ?_⟩
    rw [List.append_nil, List.append_nil, laterStarts, lineSlices?, hslice]
    rfl
  | cons c rest ih =>
    by_cases hnewline : c = '\n'
    · subst hnewline
      obtain ⟨piece, others, hlines, hslices⟩ := ih (before ++ passed ++ ['\n']) []
      have hslice := slice?_append before passed ('\n' :: rest)
      have hbytes : byteLength (before ++ passed ++ ['\n']) = byteLength (before ++ passed) + 1 := by
        rw [byteLength_append _ ['\n']]
        rfl
      rw [List.append_nil, List.append_assoc _ ['\n'], List.singleton_append, hbytes] at hslices
      refine ⟨[], lines rest, by simp [lines, split], ?_⟩
      have hsize : ('\n' : Char).utf8Size = 1 := rfl
      simp only [laterStarts, if_true, hsize, lineSlices?, Nat.add_sub_cancel, hslice, hslices]
      simp [hlines]
    · obtain ⟨piece, others, hlines, hslices⟩ := ih before (passed ++ [c])
      obtain ⟨_, _, hsplit, hcons⟩ := split_cons_of_ne hnewline rest
      obtain ⟨rfl, rfl⟩ := List.cons.inj (hlines.symm.trans hsplit)
      refine ⟨c :: piece, others, hcons, ?_⟩
      have hbytes : byteLength (before ++ (passed ++ [c]))
          = byteLength (before ++ passed) + c.utf8Size := by
        rw [← List.append_assoc, byteLength_append _ [c]]
        rfl
      rw [hbytes, ← List.append_assoc before, List.append_assoc _ [c], List.append_assoc passed,
        List.singleton_append, List.singleton_append] at hslices
      rw [laterStarts, if_neg hnewline]
      exact hslices

/-- **The lines of a text are the slices between its line starts.** -/
theorem Text.lineSlices?_lineStarts (text : List Char) :
    lineSlices? text (lineStarts text) = some (lines text) := by
  obtain ⟨piece, others, hlines, hslices⟩ := lineSlices?_laterStarts [] [] text
  rw [hlines]
  exact hslices

/-! ## Tokens -/

/-- The tokens of a line by slices. The token under way, if there is one, began at `start`, and the rest
of the line begins at `offset`. -/
def sliceTokens? (kind : Nat → Kind) (line : List Char) (start : Nat) (current : Option Kind)
    (offset : Nat) : List Char → Option (List Token)
  | [] =>
    match current with
    | none => some []
    | some current => do
      let text ← Text.slice? line start (Text.byteLength line)
      return [⟨current, text⟩]
  | c :: rest =>
    match current with
    | none => sliceTokens? kind line start (some (kind offset)) (offset + c.utf8Size) rest
    | some current =>
      if current = kind offset then
        sliceTokens? kind line start (some current) (offset + c.utf8Size) rest
      else do
        let text ← Text.slice? line start offset
        let others ← sliceTokens? kind line offset (some (kind offset)) (offset + c.utf8Size) rest
        return ⟨current, text⟩ :: others

/-- A run of characters put in front of tokens: it joins the first if they agree in kind. -/
def Token.extend (kind : Kind) (run : List Char) : List Token → List Token
  | [] => [⟨kind, run⟩]
  | token :: rest =>
    if token.kind = kind then ⟨kind, run ++ token.text⟩ :: rest else ⟨kind, run⟩ :: token :: rest

theorem Token.push_eq_extend (kind : Kind) (c : Char) (rest : List Token) :
    push kind c rest = extend kind [c] rest := by
  cases rest <;> rfl

/-- A run takes in the next character if it is of its kind. -/
theorem Token.extend_push_self (kind : Kind) (run : List Char) (c : Char) (rest : List Token) :
    extend kind run (push kind c rest) = extend kind (run ++ [c]) rest := by
  cases rest with
  | nil => simp [push, extend]
  | cons token rest =>
    by_cases h : token.kind = kind
    · simp [push, extend, h]
    · simp [push, extend, h]

/-- A run ends before a character of another kind. -/
theorem Token.extend_push_of_ne {kind other : Kind} (h : kind ≠ other) (run : List Char) (c : Char)
    (rest : List Token) : extend kind run (push other c rest) = ⟨kind, run⟩ :: push other c rest := by
  have hne : other ≠ kind := h.symm
  cases rest with
  | nil => simp [push, extend, hne]
  | cons token rest =>
    by_cases htoken : token.kind = other
    · simp [push, extend, htoken, hne]
    · simp [push, extend, htoken, hne]

/-- The slices from a token under way on: its run of characters goes in front of the tokens that follow. -/
theorem sliceTokens?_run (kind : Nat → Kind) (before run rest : List Char) (current : Kind) :
    sliceTokens? kind (before ++ run ++ rest) (Text.byteLength before) (some current)
      (Text.byteLength (before ++ run)) rest
      = some (Token.extend current run (tokens kind (Text.byteLength (before ++ run)) rest)) := by
  induction rest generalizing before run current with
  | nil =>
    have hslice := Text.slice?_append before run []
    rw [List.append_nil] at hslice
    rw [List.append_nil, sliceTokens?, hslice]
    rfl
  | cons c rest ih =>
    have hnext : Text.byteLength (before ++ run) + c.utf8Size
        = Text.byteLength (before ++ run ++ [c]) := by
      rw [Text.byteLength_append _ [c]]
      rfl
    have hline : before ++ run ++ c :: rest = before ++ run ++ [c] ++ rest := by
      rw [List.append_assoc _ [c], List.singleton_append]
    by_cases hkind : current = kind (Text.byteLength (before ++ run))
    · -- the token goes on
      have hmore := ih before (run ++ [c]) current
      rw [← List.append_assoc before run [c]] at hmore
      rw [sliceTokens?, tokens, hnext, hline, if_pos hkind, hmore, ← hkind, Token.extend_push_self]
    · -- the token ends, and the next begins with this character
      have hslice := Text.slice?_append before run (c :: rest)
      have hmore := ih (before ++ run) [c] (kind (Text.byteLength (before ++ run)))
      rw [sliceTokens?, tokens, hnext, hslice, hline, if_neg hkind, hmore,
        Token.extend_push_of_ne hkind, Token.push_eq_extend]
      rfl

/-- **The tokens of a line are the slices between the offsets where its kind changes.** -/
theorem sliceTokens?_eq_tokens (kind : Nat → Kind) (line : List Char) :
    sliceTokens? kind line 0 none 0 line = some (tokens kind 0 line) := by
  cases line with
  | nil => rfl
  | cons c rest =>
    have hrun := sliceTokens?_run kind [] [c] rest (kind 0)
    rw [sliceTokens?, tokens, Token.push_eq_extend]
    simpa using hrun

/-! ## Listings -/

/-- A line of a listing by slices. -/
def ListedLine.sliced? (theme : Theme) (node : LineNode) (spans : List Span) (text : List Char) :
    Option ListedLine := do
  let tokens ← sliceTokens? (kindAt spans) text 0 none 0 text
  return ⟨node.classes, node.properties, tokens.map fun token =>
    ⟨theme.style? token.kind, token.text⟩⟩

/-- **A listing by slices.** Lines and tokens are cut out of the code by byte offsets, and the spans of a
line are looked up by its index; past the last there are none. -/
def Listing.sliced? (code : List Char) (spans : List (List Span)) (theme : Theme)
    (annotate : Annotation) : Option Listing := do
  let texts ← Text.lineSlices? code (Text.lineStarts code)
  let lines ← texts.zipIdx.mapM fun (text, index) =>
    ListedLine.sliced? theme (annotate (.ofNumber (index + 1))) (spans[index]?.getD [])
      (Text.withoutReturn text)
  return ⟨theme.name, theme.background, theme.foreground, lines⟩

theorem ListedLine.sliced?_eq (theme : Theme) (node : LineNode) (spans : List Span)
    (text : List Char) : sliced? theme node spans text = some (ofText theme node spans text) := by
  rw [sliced?, sliceTokens?_eq_tokens]
  rfl

theorem mapM_sliced?_eq (theme : Theme) (annotate : Annotation) (spans : List (List Span)) (index : Nat)
    (texts : List (List Char)) :
    ((texts.zipIdx index).mapM fun (text, index) =>
      ListedLine.sliced? theme (annotate (.ofNumber (index + 1))) (spans[index]?.getD [])
        (Text.withoutReturn text))
      = some (listLines theme annotate (index + 1) (spans.drop index) texts) := by
  induction texts generalizing index with
  | nil => rfl
  | cons text rest ih =>
    have hspans : (spans.drop index).headD [] = spans[index]?.getD [] := by
      rw [List.headD_eq_head?_getD, List.head?_drop]
    rw [List.zipIdx_cons, List.mapM_cons, ih, listLines, hspans, List.tail_drop]
    dsimp only
    rw [ListedLine.sliced?_eq]
    rfl

/-- **A listing by slices never fails, and is the listing.** -/
theorem Listing.sliced?_eq (code : List Char) (spans : List (List Span)) (theme : Theme)
    (annotate : Annotation) :
    sliced? code spans theme annotate = some (ofCode code spans theme annotate) := by
  rw [sliced?, Text.lineSlices?_lineStarts, Option.bind_eq_bind, Option.bind_some, mapM_sliced?_eq]
  rfl

end CodeMarkup
