import CodeMarkup.Proofs.Markup.BlockForm

/-!
# Numbered lines

A request gives each line of its listing its number and marks the lines of a set. The block that comes out has
one span for each line of the code, in order: the first opens with the number 1, each further one with the
number after, and those of the set have a second class (`markup_ofCode_numbered`). This holds for every
theme.

If the theme brings no tags of its own, nothing else in the block looks like the opening of a line, so a page
that looks for lines finds exactly these (`lineHeads_ofCode_numbered`).
-/

namespace CodeMarkup

open Text (Plain escapedMarkup)

/-- What the opening tag of a line begins with. -/
def lineMark : List Char := "<span class=\"line".toList

/-- The opening tag of a numbered line, up to the bracket that ends it. -/
def lineHead (marked : Bool) (number : Nat) : List Char :=
  lineMark ++ (if marked then " highlighted-line".toList else [])
    ++ "\" data-line=\"".toList ++ Text.decimal number ++ ['"']

/-- A numbered line as it is written. -/
def numberedLine (marked : Bool) (number : Nat) (tokens : List StyledToken) : List Char :=
  lineHead marked number ++ ['>'] ++ tokens.flatMap StyledToken.markup ++ "</span>".toList

/-- Lines as they are written, numbered from a first one on. -/
def numberedLines (marked : Nat → Bool) (first : Nat) (lines : List (List StyledToken)) : List (List Char) :=
  (lines.zipIdx first).map fun (tokens, number) => numberedLine (marked number) number tokens

/-- The opening tags of lines in a markup, each up to the bracket that ends it. -/
def lineHeads : List Char → List (List Char)
  | [] => []
  | c :: rest =>
    if lineMark.isPrefixOf (c :: rest) then
      (c :: rest).takeWhile (· ≠ '>') :: lineHeads rest
    else lineHeads rest

/-! ## Numbers -/

theorem Text.escapedMarkup_of_plain {text : List Char} (h : Plain text) : escapedMarkup text = text := by
  induction text with
  | nil => rfl
  | cons c rest ih =>
    have hc : markupChar c = [c] := by
      have hplain := h c List.mem_cons_self
      unfold markupChar entity?
      split <;> first | rfl | exact absurd hplain (by decide)
    rw [escapedMarkup_cons, hc, ih fun d hd => h d (List.mem_cons_of_mem _ hd), List.singleton_append]

theorem Text.plain_decimal (number : Nat) : Plain (decimal number) := by
  intro c hc hescaped
  have hdigit : c.isDigit = true := Nat.isDigit_of_mem_toDigits (by decide) (by decide) hc
  simp only [List.mem_cons, List.not_mem_nil, or_false] at hescaped
  rcases hescaped with rfl | rfl | rfl | rfl | rfl <;> exact absurd hdigit (by decide)

theorem Text.toList_toString (number : Nat) : (toString number).toList = decimal number :=
  String.toList_ofList

/-! ## Writing -/

/-- What a request does to a line. -/
theorem LineSet.annotation_ofNumber (lines : LineSet) (number : Nat) :
    lines.annotation (.ofNumber number)
      = ⟨number, if lines.contains number then [lineClass, markedLineClass] else [lineClass],
        [(lineNumberProperty, toString number)]⟩ := by
  change (if lines.contains number then
    LineNode.addClass ⟨number, [lineClass], [(lineNumberProperty, toString number)]⟩ markedLineClass
    else ⟨number, [lineClass], [(lineNumberProperty, toString number)]⟩) = _
  have hnew : [lineClass].contains markedLineClass = false := by decide
  split
  · rw [LineNode.addClass, LineNode.hasClass, hnew]
    rfl
  · rfl

/-- A line that a request has numbered, as it is written. -/
theorem markup_ofText_numbered (theme : Theme) (lines : LineSet) (number : Nat) (spans : List Span)
    (text : List Char) :
    (ListedLine.ofText theme (lines.annotation (.ofNumber number)) spans text).markup
      = numberedLine (lines.contains number) number
        (ListedLine.ofText theme (lines.annotation (.ofNumber number)) spans text).tokens := by
  have hclasses : escapedMarkup (" ".intercalate (if lines.contains number then [lineClass, markedLineClass]
      else [lineClass])).toList
      = "line".toList ++ (if lines.contains number then " highlighted-line".toList else []) := by
    split <;> decide
  have hvalue : escapedMarkup (toString number).toList = Text.decimal number := by
    rw [Text.toList_toString, Text.escapedMarkup_of_plain (Text.plain_decimal number)]
  rw [ListedLine.markup, ListedLine.attributes, spanElement_class]
  simp only [ListedLine.ofText, lines.annotation_ofNumber, List.flatMap_cons, List.flatMap_nil]
  rw [hclasses, hvalue]
  -- the same pieces in the same order, cut into literals at other places
  have h : ∀ opening line marks quote property digits bracket content closing : List Char,
      opening ++ (line ++ marks) ++ quote ++ (property ++ digits ++ quote ++ []) ++ bracket ++ content ++ closing
        = (opening ++ line) ++ marks ++ (quote ++ property) ++ digits ++ quote ++ bracket ++ content
          ++ closing := by
    simp
  exact h _ _ _ _ _ _ _ _ _

/-- The lines that a request has numbered, as they are written. -/
theorem markup_listLines_numbered (theme : Theme) (lines : LineSet) (first : Nat) (spans : List (List Span))
    (texts : List (List Char)) :
    (listLines theme lines.annotation first spans texts).map ListedLine.markup
      = numberedLines lines.contains first
        ((listLines theme lines.annotation first spans texts).map ListedLine.tokens) := by
  induction texts generalizing first spans with
  | nil => rfl
  | cons text rest ih =>
    rw [listLines, List.map_cons, List.map_cons, ih, markup_ofText_numbered]
    rfl

/-- The tokens of a line have the text of the line. -/
theorem text_listLines (theme : Theme) (annotate : Annotation) (first : Nat) (spans : List (List Span))
    (texts : List (List Char)) :
    (listLines theme annotate first spans texts).map (·.tokens.flatMap StyledToken.text)
      = texts.map Text.withoutReturn := by
  induction texts generalizing first spans with
  | nil => rfl
  | cons text rest ih =>
    rw [listLines, List.map_cons, List.map_cons, ih, ListedLine.ofText, List.flatMap_map]
    exact congrArg (· :: _) (flatMap_text_tokens _ 0 _)

/-- The styles of a line's tokens are styles of the theme. -/
theorem style_listLines {theme : Theme} {annotate : Annotation} {first : Nat} {spans : List (List Span)}
    {texts : List (List Char)} {line : ListedLine} (hline : line ∈ listLines theme annotate first spans texts)
    {token : StyledToken} (htoken : token ∈ line.tokens) : ∃ kind, token.style = theme.style? kind := by
  induction texts generalizing first spans with
  | nil => cases hline
  | cons text rest ih =>
    rcases List.mem_cons.mp hline with rfl | hrest
    · obtain ⟨run, -, rfl⟩ := List.mem_map.mp htoken
      exact ⟨run.kind, rfl⟩
    · exact ih hrest

/-- The opening of a block, as it is written under a theme. -/
def Theme.blockOpening (theme : Theme) : List Char :=
  "<pre class=\"lark ".toList ++ escapedMarkup theme.name.toList ++ "\" style=\"".toList
    ++ ("background-color:".toList ++ theme.background.css ++ ";color:".toList ++ theme.foreground.css)
    ++ "\" tabindex=\"0\"><code>".toList

/-- **The block of a request's listing is its numbered lines**, one after another from the first on. -/
theorem markup_ofCode_numbered (code : List Char) (spans : List (List Span)) (theme : Theme)
    (lines : LineSet) :
    (Listing.ofCode code spans theme lines.annotation).markup.toList
      = theme.blockOpening ++ Text.join '\n' (numberedLines lines.contains 1
          ((Listing.ofCode code spans theme lines.annotation).lines.map ListedLine.tokens))
        ++ Listing.closing := by
  have hlines := markup_listLines_numbered theme lines 1 spans (Text.lines code)
  rw [Listing.markup, String.toList_ofList, opening_block]
  exact congrArg (fun written => theme.blockOpening ++ Text.join '\n' written ++ Listing.closing) hlines

/-- Lines that two annotations treat alike are listed alike. -/
theorem listLines_congr {one other : Annotation} {first : Nat} {texts : List (List Char)}
    (h : ∀ number, first ≤ number → number < first + texts.length →
      one (.ofNumber number) = other (.ofNumber number)) (theme : Theme) (spans : List (List Span)) :
    listLines theme one first spans texts = listLines theme other first spans texts := by
  induction texts generalizing first spans with
  | nil => rfl
  | cons text rest ih =>
    have hline : one (.ofNumber first) = other (.ofNumber first) :=
      h first (Nat.le_refl _) (Nat.lt_add_of_pos_right (Nat.succ_pos _))
    have hlines := ih (fun number hfirst hlast =>
      h number (Nat.le_of_succ_le hfirst) (by rw [List.length_cons]; omega)) spans.tail
    rw [listLines, listLines, hline, hlines]

/-- Lines past the last one of the code make no difference. -/
theorem ofCode_annotation_congr {code : List Char} {one other : LineSet}
    (h : ∀ number, 1 ≤ number → number ≤ code.count '\n' + 1 → one.contains number = other.contains number)
    (spans : List (List Span)) (theme : Theme) :
    Listing.ofCode code spans theme one.annotation = Listing.ofCode code spans theme other.annotation := by
  have hlines : listLines theme one.annotation 1 spans (Text.lines code)
      = listLines theme other.annotation 1 spans (Text.lines code) := by
    refine listLines_congr (fun number hfirst hlast => ?_) theme spans
    rw [Text.length_lines] at hlast
    rw [one.annotation_ofNumber, other.annotation_ofNumber, h number hfirst (by omega)]
  rw [Listing.ofCode, hlines]
  rfl

/-! ## Looking for lines -/

theorem lineMark_eq : lineMark = '<' :: "span class=\"line".toList := by decide

theorem lineHeads_cons_of_ne {c : Char} (h : c ≠ '<') (rest : List Char) :
    lineHeads (c :: rest) = lineHeads rest := by
  have hc : lineMark.isPrefixOf (c :: rest) = false := by
    rw [lineMark_eq, List.isPrefixOf_cons_cons, beq_eq_false_iff_ne.mpr h.symm, Bool.false_and]
  rw [lineHeads, hc, if_neg Bool.false_ne_true]

theorem lineHeads_append {text : List Char} (h : '<' ∉ text) (rest : List Char) :
    lineHeads (text ++ rest) = lineHeads rest := by
  induction text with
  | nil => rfl
  | cons c text ih =>
    rw [List.mem_cons, not_or] at h
    rw [List.cons_append, lineHeads_cons_of_ne (Ne.symm h.1), ih h.2]

/-- The tag of another element is none of a line. -/
theorem lineHeads_other {c : Char} (hc : c ≠ 's') {tag : List Char} (h : '<' ∉ c :: tag) (rest : List Char) :
    lineHeads ('<' :: c :: tag ++ rest) = lineHeads rest := by
  have hmark : lineMark = '<' :: 's' :: "pan class=\"line".toList := by decide
  have hother : lineMark.isPrefixOf ('<' :: (c :: tag ++ rest)) = false := by
    rw [hmark, List.isPrefixOf_cons_cons, List.cons_append, List.isPrefixOf_cons_cons,
      beq_eq_false_iff_ne.mpr hc.symm, Bool.false_and, Bool.and_false]
  rw [List.cons_append, lineHeads, hother, if_neg Bool.false_ne_true, lineHeads_append h]

/-- The tag of a line is found where it stands. -/
theorem lineHeads_tag {tag : List Char} (h : Text.Tagless tag) (rest : List Char) :
    lineHeads (lineMark ++ tag ++ '>' :: rest) = (lineMark ++ tag) :: lineHeads rest := by
  have hopens : lineMark.isPrefixOf (lineMark ++ tag ++ '>' :: rest) = true := by
    rw [List.isPrefixOf_iff_prefix, List.append_assoc]
    exact List.prefix_append _ _
  have hends : (lineMark ++ tag ++ '>' :: rest).takeWhile (· ≠ '>') = lineMark ++ tag := by
    have hmark : '>' ∉ lineMark := by decide
    have hall : ∀ c ∈ lineMark ++ tag, decide (c ≠ '>') = true := by
      intro c hc
      rcases List.mem_append.mp hc with hc | hc
      · exact decide_eq_true fun heq => hmark (heq ▸ hc)
      · exact decide_eq_true fun heq => h.2 (heq ▸ hc)
    rw [List.takeWhile_append_of_pos hall, List.takeWhile_cons_of_neg (by decide), List.append_nil]
  -- the search goes on inside the tag, where no other one opens
  have hrest : lineHeads ("span class=\"line".toList ++ tag ++ '>' :: rest) = lineHeads rest := by
    have hless : '<' ∉ "span class=\"line".toList ++ tag := by
      rw [List.mem_append, not_or]
      exact ⟨by decide, h.1⟩
    rw [lineHeads_append hless, lineHeads_cons_of_ne (by decide)]
  rw [lineMark_eq] at hopens hends ⊢
  rw [List.cons_append, List.cons_append] at hopens hends ⊢
  rw [lineHeads, lineMark_eq, hopens, if_pos rfl, hends, hrest]

/-- What follows the mark in a numbered line's tag has no brackets. -/
theorem lineHead_eq (marked : Bool) (number : Nat) :
    ∃ tag, Text.Tagless tag ∧ lineHead marked number = lineMark ++ tag := by
  have hmarks : Text.Tagless (if marked then " highlighted-line".toList else []) := by
    split <;> decide
  have hplain := Text.plain_decimal number
  have hnumber : Text.Tagless (Text.decimal number) :=
    ⟨fun h => hplain _ h (by decide), fun h => hplain _ h (by decide)⟩
  refine ⟨(if marked then " highlighted-line".toList else []) ++ "\" data-line=\"".toList
    ++ Text.decimal number ++ ['"'], ?_, ?_⟩
  · rw [Text.tagless_append, Text.tagless_append, Text.tagless_append]
    exact ⟨⟨⟨hmarks, by decide⟩, hnumber⟩, by decide⟩
  · simp only [lineHead, List.append_assoc]

/-- No line opens in a token. -/
theorem lineHeads_token {token : StyledToken} (h : ∀ style ∈ token.style, Text.Tagless style.css)
    (rest : List Char) : lineHeads (token.markup ++ rest) = lineHeads rest := by
  have htext : ∀ rest, lineHeads (escapedMarkup token.text ++ rest) = lineHeads rest :=
    lineHeads_append (Text.tagless_escapedMarkup token.text).1
  rw [StyledToken.markup]
  rcases hstyle : token.style with _ | style
  · exact htext rest
  · have hcss := (h style hstyle).1
    have hopen : lineHeads (style.css ++ ("\">".toList ++ (escapedMarkup token.text
        ++ ("</span>".toList ++ rest)))) = lineHeads rest :=
      (lineHeads_append hcss _).trans (htext _)
    dsimp only
    rw [spanElement_style]
    simp only [List.append_assoc]
    exact hopen

theorem lineHeads_tokens {tokens : List StyledToken}
    (h : ∀ token ∈ tokens, ∀ style ∈ token.style, Text.Tagless style.css) (rest : List Char) :
    lineHeads (tokens.flatMap StyledToken.markup ++ rest) = lineHeads rest := by
  induction tokens with
  | nil => rfl
  | cons token tokens ih =>
    rw [List.flatMap_cons, List.append_assoc, lineHeads_token (h token List.mem_cons_self),
      ih fun other hm => h other (List.mem_cons_of_mem _ hm)]

/-- A numbered line opens once, with its tag. -/
theorem lineHeads_numberedLine {tokens : List StyledToken}
    (h : ∀ token ∈ tokens, ∀ style ∈ token.style, Text.Tagless style.css) (marked : Bool) (number : Nat)
    (rest : List Char) :
    lineHeads (numberedLine marked number tokens ++ rest) = lineHead marked number :: lineHeads rest := by
  obtain ⟨tag, htag, hhead⟩ := lineHead_eq marked number
  have hclose : lineHeads ("</span>".toList ++ rest) = lineHeads rest :=
    lineHeads_other (c := '/') (by decide) (by decide) rest
  have hwhole := lineHeads_tag htag (tokens.flatMap StyledToken.markup ++ ("</span>".toList ++ rest))
  rw [lineHeads_tokens h, hclose] at hwhole
  rw [numberedLine, hhead]
  simp only [List.append_assoc, List.singleton_append] at hwhole ⊢
  exact hwhole

/-- Numbered lines open once each, one after another. -/
theorem lineHeads_numberedLines {lines : List (List StyledToken)}
    (h : ∀ tokens ∈ lines, ∀ token ∈ tokens, ∀ style ∈ token.style, Text.Tagless style.css)
    (marked : Nat → Bool) (first : Nat) (rest : List Char) :
    lineHeads (Text.join '\n' (numberedLines marked first lines) ++ rest)
      = (List.range' first lines.length).map (fun number => lineHead (marked number) number)
        ++ lineHeads rest := by
  induction lines generalizing first with
  | nil => rfl
  | cons tokens lines ih =>
    have hline := lineHeads_numberedLine (h tokens List.mem_cons_self) (marked first) first
    have hlines := ih (fun other hm => h other (List.mem_cons_of_mem _ hm)) (first + 1)
    have hcons : numberedLines marked first (tokens :: lines)
        = numberedLine (marked first) first tokens :: numberedLines marked (first + 1) lines := rfl
    rw [hcons, List.length_cons, List.range'_succ, List.map_cons, List.cons_append, ← hlines]
    rcases lines with _ | ⟨next, lines⟩
    · exact hline rest
    · have hnext : numberedLines marked (first + 1) (next :: lines)
          ≠ [] := List.cons_ne_nil _ _
      rw [Text.join, List.append_assoc, hline, List.cons_append, lineHeads_cons_of_ne (by decide)]
      exact hnext

/-- No line opens before the first. -/
theorem lineHeads_blockOpening {theme : Theme} (h : theme.Tagless) (rest : List Char) :
    lineHeads (theme.blockOpening ++ rest) = lineHeads rest := by
  have hbackground := (h.paint (show theme.background ∈ theme.paints by simp [Theme.paints])).1
  have hforeground := (h.paint (show theme.foreground ∈ theme.paints by simp [Theme.paints])).1
  have hname := (Text.tagless_escapedMarkup theme.name.toList).1
  have hpre : ∀ rest, lineHeads ("<pre class=\"lark ".toList ++ rest) = lineHeads rest :=
    lineHeads_other (c := 'p') (by decide) (by decide)
  have hcode : lineHeads ("<code>".toList ++ rest) = lineHeads rest :=
    lineHeads_other (c := 'c') (by decide) (by decide) rest
  have hlast : lineHeads ("\" tabindex=\"0\"><code>".toList ++ rest) = lineHeads rest := by
    have hsplit : "\" tabindex=\"0\"><code>".toList = "\" tabindex=\"0\">".toList ++ "<code>".toList := by decide
    rw [hsplit, List.append_assoc, lineHeads_append (by decide), hcode]
  -- the pieces are named first: as they stand, the literals would be taken apart
  have happend : ∀ pre name style before background between foreground last : List Char,
      pre ++ name ++ style ++ (before ++ background ++ between ++ foreground) ++ last ++ rest
        = pre ++ (name ++ (style ++ (before ++ (background ++ (between ++ (foreground ++ (last ++ rest))))))) := by
    simp
  unfold Theme.blockOpening
  rw [happend, hpre, lineHeads_append hname, lineHeads_append (by decide), lineHeads_append (by decide),
    lineHeads_append hbackground, lineHeads_append (by decide), lineHeads_append hforeground, hlast]

/-- **A page that looks for lines in a request's listing finds the numbered ones**, each once and in order, if
the theme brings no tags of its own. -/
theorem lineHeads_ofCode_numbered (code : List Char) (spans : List (List Span)) {theme : Theme}
    (h : theme.Tagless) (lines : LineSet) :
    lineHeads (Listing.ofCode code spans theme lines.annotation).markup.toList
      = (List.range' 1 (code.count '\n' + 1)).map fun number => lineHead (lines.contains number) number := by
  have hstyles : ∀ tokens ∈ (Listing.ofCode code spans theme lines.annotation).lines.map ListedLine.tokens,
      ∀ token ∈ tokens, ∀ style ∈ token.style, Text.Tagless style.css := by
    intro tokens htokens token htoken style hstyle
    obtain ⟨line, hline, rfl⟩ := List.mem_map.mp htokens
    obtain ⟨kind, hkind⟩ := style_listLines hline htoken
    exact h.style (hkind.symm.trans hstyle)
  have hclosing : lineHeads Listing.closing = [] := by decide
  rw [markup_ofCode_numbered, List.append_assoc, lineHeads_blockOpening h,
    lineHeads_numberedLines hstyles, hclosing, List.append_nil, List.length_map, Listing.length_lines_ofCode]

end CodeMarkup
