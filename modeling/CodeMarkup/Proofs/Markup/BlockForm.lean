import CodeMarkup.Proofs.Markup.Inert

/-!
# The form of a listing

The markup of a listing has one form, whatever code, classes, property values and theme name come into it: a
block of lines, each a span with attributes, in which texts and styled spans follow one another, and nothing
in between that is not inert (`blockForm_listing`). So nothing that comes from outside can open an element,
leave an attribute or close the block.

The form is given as a grammar, from texts up to blocks. A line opens with a tag that occurs nowhere else in
the grammar, so the number of lines can be read off the markup alone (`BlockForm.count_eq`).
-/

namespace CodeMarkup

open Text (Inert IsName escapedMarkup)

/-! ## The grammar -/

/-- A token: a text, or a text in a styled span. -/
inductive TokenForm : List Char → Prop where
  /-- a text -/
  | text {text : List Char} (htext : Inert text) : TokenForm text
  /-- a text in a styled span -/
  | styled {style text : List Char} (hstyle : Inert style) (htext : Inert text) :
    TokenForm ("<span style=\"".toList ++ style ++ "\">".toList ++ text ++ "</span>".toList)

/-- A property: a name, and a value between quotation marks. -/
inductive PropertyForm : List Char → Prop where
  /-- a name and a value -/
  | property {name value : List Char} (hname : IsName name) (hvalue : Inert value) :
    PropertyForm (" ".toList ++ name ++ "=\"".toList ++ value ++ "\"".toList)

/-- A line: a span with classes and properties around tokens. -/
inductive LineForm : List Char → Prop where
  /-- classes, properties and tokens -/
  | line {classes : List Char} {properties tokens : List (List Char)} (hclasses : Inert classes)
      (hproperties : ∀ property ∈ properties, PropertyForm property)
      (htokens : ∀ token ∈ tokens, TokenForm token) :
    LineForm ("<span class=\"".toList ++ classes ++ "\"".toList ++ properties.flatten ++ ">".toList
      ++ tokens.flatten ++ "</span>".toList)

/-- A block of a number of lines, with newlines between them. -/
inductive BlockForm (count : Nat) : List Char → Prop where
  /-- a theme's name, style declarations and lines -/
  | block {name style : List Char} {lines : List (List Char)} (hname : Inert name)
      (hstyle : Inert style) (hlines : ∀ line ∈ lines, LineForm line) (hcount : lines.length = count) :
    BlockForm count ("<pre class=\"lark ".toList ++ name ++ "\" style=\"".toList ++ style
      ++ "\" tabindex=\"0\"><code>".toList ++ Text.join '\n' lines ++ "</code></pre>".toList)

/-! ## Counting lines -/

/-- The number of places in a markup where a line opens. -/
def lineTags : List Char → Nat
  | '<' :: 's' :: 'p' :: 'a' :: 'n' :: ' ' :: 'c' :: rest => lineTags rest + 1
  | _ :: rest => lineTags rest
  | [] => 0

theorem lineTags_append {text : List Char} (h : '<' ∉ text) (rest : List Char) :
    lineTags (text ++ rest) = lineTags rest := by
  induction text with
  | nil => rfl
  | cons c text ih =>
    rw [List.mem_cons, not_or] at h
    rw [List.cons_append, lineTags, ih h.2]
    exact fun _ hc => absurd hc.symm h.1

theorem PropertyForm.not_mem_less {property : List Char} (h : PropertyForm property) : '<' ∉ property := by
  cases h with
  | property hname hvalue =>
    simp only [List.mem_append, not_or]
    exact ⟨⟨⟨⟨by decide, hname.plain.inert.not_mem_less⟩, by decide⟩, hvalue.not_mem_less⟩, by decide⟩

/-- No line opens in a token. -/
theorem TokenForm.lineTags_append {token : List Char} (h : TokenForm token) (rest : List Char) :
    lineTags (token ++ rest) = lineTags rest := by
  cases h with
  | text htext => exact CodeMarkup.lineTags_append htext.not_mem_less rest
  | @styled style text hstyle htext =>
    have hend : lineTags (text ++ ("</span>".toList ++ rest)) = lineTags rest :=
      CodeMarkup.lineTags_append htext.not_mem_less _
    have hopen : lineTags (style ++ ("\">".toList ++ (text ++ ("</span>".toList ++ rest))))
        = lineTags (text ++ ("</span>".toList ++ rest)) :=
      CodeMarkup.lineTags_append hstyle.not_mem_less _
    simp only [List.append_assoc]
    exact hopen.trans hend

theorem lineTags_tokens {tokens : List (List Char)} (h : ∀ token ∈ tokens, TokenForm token)
    (rest : List Char) : lineTags (tokens.flatten ++ rest) = lineTags rest := by
  induction tokens with
  | nil => rfl
  | cons token tokens ih =>
    rw [List.flatten_cons, List.append_assoc, (h token List.mem_cons_self).lineTags_append,
      ih fun other hm => h other (List.mem_cons_of_mem _ hm)]

/-- A line opens once. -/
theorem LineForm.lineTags_append {line : List Char} (h : LineForm line) (rest : List Char) :
    lineTags (line ++ rest) = lineTags rest + 1 := by
  cases h with
  | @line classes properties tokens hclasses hproperties htokens =>
    have hattributes : '<' ∉ classes ++ "\"".toList ++ properties.flatten ++ ">".toList := by
      simp only [List.mem_append, List.mem_flatten, not_or, not_exists, not_and]
      exact ⟨⟨⟨hclasses.not_mem_less, by decide⟩, fun property hm => (hproperties property hm).not_mem_less⟩,
        by decide⟩
    have htags : lineTags (classes ++ "\"".toList ++ properties.flatten ++ ">".toList
        ++ (tokens.flatten ++ ("</span>".toList ++ rest))) = lineTags rest :=
      (CodeMarkup.lineTags_append hattributes _).trans (lineTags_tokens htokens _)
    simp only [List.append_assoc] at htags ⊢
    exact congrArg (· + 1) htags

theorem lineTags_lines {lines : List (List Char)} (h : ∀ line ∈ lines, LineForm line) (rest : List Char) :
    lineTags (Text.join '\n' lines ++ rest) = lines.length + lineTags rest := by
  induction lines with
  | nil => exact (Nat.zero_add _).symm
  | cons line lines ih =>
    have hline := h line List.mem_cons_self
    have hlines := ih fun other hm => h other (List.mem_cons_of_mem _ hm)
    rcases lines with _ | ⟨next, lines⟩
    · rw [Text.join, hline.lineTags_append, List.length_singleton, Nat.add_comm]
    · have hrest : lineTags ('\n' :: (Text.join '\n' (next :: lines) ++ rest))
          = (next :: lines).length + lineTags rest := hlines
      rw [Text.join, List.append_assoc, hline.lineTags_append, List.cons_append, hrest]
      · exact Nat.add_right_comm ..
      · exact List.cons_ne_nil _ _

/-- **The number of lines of a block can be read off its markup.** -/
theorem BlockForm.count_eq {count : Nat} {markup : List Char} (h : BlockForm count markup) :
    lineTags markup = count := by
  cases h with
  | @block name style lines hname hstyle hlines hcount =>
    have hopen : lineTags (name ++ ("\" style=\"".toList ++ (style ++
        ("\" tabindex=\"0\"><code>".toList ++ (Text.join '\n' lines ++ "</code></pre>".toList)))))
        = count := by
      rw [lineTags_append hname.not_mem_less]
      refine (lineTags_append hstyle.not_mem_less _).trans ?_
      exact (lineTags_lines hlines _).trans hcount
    simp only [List.append_assoc]
    exact hopen

/-! ## Writing in the grammar -/

/-- A styled span, as it is written. -/
theorem spanElement_style (style text : List Char) :
    spanElement (attributeText "style".toList style) text
      = "<span style=\"".toList ++ style ++ "\">".toList ++ text ++ "</span>".toList := by
  have h : ∀ opening name middle closing : List Char,
      opening ++ (' ' :: name ++ middle ++ style ++ ['"']) ++ ['>'] ++ text ++ closing
        = (opening ++ ' ' :: name ++ middle) ++ style ++ ['"', '>'] ++ text ++ closing := by
    simp
  exact h _ _ _ _

/-- A span with classes and properties, as it is written. -/
theorem spanElement_class (classes properties content : List Char) :
    spanElement (attributeText "class".toList classes ++ properties) content
      = "<span class=\"".toList ++ classes ++ "\"".toList ++ properties ++ ">".toList ++ content
        ++ "</span>".toList := by
  have h : ∀ opening name middle closing : List Char,
      opening ++ (' ' :: name ++ middle ++ classes ++ ['"'] ++ properties) ++ ['>'] ++ content ++ closing
        = (opening ++ ' ' :: name ++ middle) ++ classes ++ ['"'] ++ properties ++ ['>'] ++ content
          ++ closing := by
    simp
  exact h _ _ _ _

/-- The opening of a block, as it is written. -/
theorem opening_block (listing : Listing) :
    listing.opening = "<pre class=\"lark ".toList ++ escapedMarkup listing.themeName.toList
      ++ "\" style=\"".toList ++ ("background-color:".toList ++ listing.background.css
        ++ ";color:".toList ++ listing.foreground.css) ++ "\" tabindex=\"0\"><code>".toList := by
  have h : ∀ opening classes middle lark name style colours tabindex content : List Char,
      opening ++ (' ' :: classes ++ middle ++ (lark ++ name) ++ ['"'])
          ++ (' ' :: style ++ middle ++ colours ++ ['"'])
          ++ (' ' :: tabindex ++ middle ++ ['0'] ++ ['"']) ++ content
        = (opening ++ ' ' :: classes ++ middle ++ lark) ++ name ++ ('"' :: ' ' :: style ++ middle)
          ++ colours ++ ('"' :: ' ' :: tabindex ++ middle ++ '0' :: '"' :: content) := by
    simp
  exact h _ _ _ _ _ _ _ _ _

/-! ## The form of a listing -/

section Listings

variable {theme : Theme} {annotate : Annotation}

theorem tokenForm_token (htheme : theme.Named) (token : Token) :
    TokenForm (StyledToken.markup ⟨theme.style? token.kind, token.text⟩) := by
  have htext := Text.inert_escapedMarkup token.text
  rw [StyledToken.markup]
  rcases hstyle : theme.style? token.kind with _ | style
  · exact .text htext
  · dsimp only
    rw [spanElement_style]
    exact .styled (htheme.style hstyle).inert htext

theorem lineForm_line (htheme : theme.Named) {node : LineNode}
    (hnode : ∀ property ∈ node.properties, IsName property.1.toList) (spans : List Span)
    (text : List Char) : LineForm (ListedLine.ofText theme node spans text).markup := by
  rw [ListedLine.markup, ListedLine.attributes, spanElement_class, List.flatMap_def,
    List.flatMap_def]
  refine .line (Text.inert_escapedMarkup _) ?_ ?_
  · intro markup hmarkup
    obtain ⟨property, hmem, rfl⟩ := List.mem_map.mp hmarkup
    exact .property (hnode property hmem) (Text.inert_escapedMarkup _)
  · intro markup hmarkup
    obtain ⟨styled, hstyled, rfl⟩ := List.mem_map.mp hmarkup
    obtain ⟨token, -, rfl⟩ := List.mem_map.mp hstyled
    exact tokenForm_token htheme token

theorem lineForm_lines (htheme : theme.Named) (hannotate : annotate.Named) (number : Nat)
    (spans : List (List Span)) (texts : List (List Char)) :
    ∀ line ∈ listLines theme annotate number spans texts, LineForm line.markup := by
  induction texts generalizing number spans with
  | nil => nofun
  | cons text rest ih =>
    intro line hline
    rcases List.mem_cons.mp hline with rfl | hrest
    · exact lineForm_line htheme (hannotate number) _ _
    · exact ih (number + 1) spans.tail line hrest

end Listings

/-- **The markup of a listing is a block**, whatever code, classes, property values and theme name come into it.
The block has one line more than the code has newlines, and nowhere else does a line open. -/
theorem blockForm_listing (code : List Char) (spans : List (List Span)) {theme : Theme}
    {annotate : Annotation} (htheme : theme.Named) (hannotate : annotate.Named) :
    BlockForm (code.count '\n' + 1) (Listing.ofCode code spans theme annotate).markup.toList ∧
      lineTags (Listing.ofCode code spans theme annotate).markup.toList = code.count '\n' + 1 := by
  have hform : BlockForm (code.count '\n' + 1)
      (Listing.ofCode code spans theme annotate).markup.toList := by
    rw [Listing.markup, String.toList_ofList, opening_block]
    refine .block (Text.inert_escapedMarkup _) htheme.colours.inert ?_ ?_
    · intro markup hmarkup
      obtain ⟨line, hline, rfl⟩ := List.mem_map.mp hmarkup
      exact lineForm_lines htheme hannotate 1 spans _ line hline
    · rw [List.length_map, Listing.length_lines_ofCode]
  exact ⟨hform, hform.count_eq⟩

/-- A class and a property value that try to leave their attributes. -/
def breakingOut : Annotation := fun node =>
  (node.addClass "\"><script>").setProperty "data-x" "\" onclick='x'"

/-- Code, a theme's name, a class and a property value that try to, do not get out. -/
theorem blockForm_listing_breakingOut :
    BlockForm 2 (Listing.ofCode "</code></pre>\n<span class=&quot;".toList [[⟨0, 7, .keyword⟩]]
        { Theme.cssVariables with name := "\"><b>" } breakingOut).markup.toList ∧
      lineTags (Listing.ofCode "</code></pre>\n<span class=&quot;".toList [[⟨0, 7, .keyword⟩]]
        { Theme.cssVariables with name := "\"><b>" } breakingOut).markup.toList = 2 := by
  have htheme : Theme.Named { Theme.cssVariables with name := "\"><b>" } := by decide
  have hannotate : breakingOut.Named := by
    intro number property hproperty
    obtain rfl := List.mem_singleton.mp hproperty
    decide
  exact blockForm_listing "</code></pre>\n<span class=&quot;".toList [[⟨0, 7, .keyword⟩]] htheme
    hannotate

end CodeMarkup
