import CodeMarkup.Proofs.Markup.Numbered

/-!
# What a theme adds

A theme decides what a block looks like and nothing about what is in it: all blocks of a code with the same spans and
annotations are one **template**, filled in with what a theme has for its holes (`markup_ofCode_template`). The holes
are the theme's name in the class of the block, the value of the block's style attribute, and the values of the style
attributes of tokens. A token has such an attribute under every theme or under none, for whether a kind has a style is
not up to the theme.

A reader who has the markup alone can erase what was filled in, if the theme brings no tags or quotation marks of its
own, and then cannot tell which theme it was (`eraseThemed_ofCode`). This holds for every annotation, also one with
names that look like tags, since the reader recognises the tag of a styled token wherever it stands.
-/

namespace CodeMarkup

open Text (escapedMarkup)

/-! ## Templates -/

/-- The value of the style attribute of a block. -/
def Theme.blockStyle (theme : Theme) : List Char :=
  "background-color:".toList ++ theme.background.css ++ ";color:".toList ++ theme.foreground.css

/-- A stretch of a template. -/
inductive Stretch where
  /-- what is written under every theme -/
  | fixed (text : List Char)
  /-- the theme's name -/
  | themeName
  /-- the style of the block -/
  | blockStyle
  /-- the style of a token of some kind -/
  | tokenStyle (kind : Kind)

/-- A stretch as it is written under a theme. -/
def Stretch.written (theme : Theme) : Stretch → List Char
  | fixed text => text
  | themeName => escapedMarkup theme.name.toList
  | blockStyle => theme.blockStyle
  | tokenStyle kind => ((theme.style? kind).map Style.css).getD []

/-- What the tag of a styled token begins with. -/
def styleMark : List Char := "<span style=\"".toList

/-- The template of a token: all but plain ones have a style. -/
def Token.template (token : Token) : List Stretch :=
  if token.kind = .plain then [.fixed (escapedMarkup token.text)]
  else [.fixed styleMark, .tokenStyle token.kind,
    .fixed ("\">".toList ++ escapedMarkup token.text ++ "</span>".toList)]

/-- The template of a line. -/
def lineTemplate (node : LineNode) (spans : List Span) (text : List Char) : List Stretch :=
  [.fixed ("<span".toList ++ ListedLine.attributes ⟨node.classes, node.properties, []⟩ ++ ['>'])]
    ++ (tokens (kindAt spans) 0 text).flatMap Token.template ++ [.fixed "</span>".toList]

/-- The templates of lines, the first of which has the given number. -/
def lineTemplates (annotate : Annotation) (number : Nat) (spans : List (List Span)) :
    List (List Char) → List (List Stretch)
  | [] => []
  | text :: rest =>
    lineTemplate (annotate (.ofNumber number)) (spans.headD []) (Text.withoutReturn text)
      :: lineTemplates annotate (number + 1) spans.tail rest

/-- The template of a block. -/
def blockTemplate (code : List Char) (spans : List (List Span)) (annotate : Annotation) : List Stretch :=
  [.fixed "<pre class=\"lark ".toList, .themeName, .fixed "\" style=\"".toList, .blockStyle,
      .fixed "\" tabindex=\"0\"><code>".toList]
    ++ Text.join (.fixed ['\n']) (lineTemplates annotate 1 spans (Text.lines code))
    ++ [.fixed Listing.closing]

/-- A token in a style, as it is written. -/
theorem markup_styled (style : Style) (text : List Char) :
    StyledToken.markup ⟨some style, text⟩
      = styleMark ++ style.css ++ ("\">".toList ++ escapedMarkup text ++ "</span>".toList) := by
  rw [← List.append_assoc, ← List.append_assoc]
  exact spanElement_style _ _

/-- Under every theme a kind that is not plain has a style. -/
theorem Theme.exists_style (theme : Theme) {kind : Kind} (h : kind ≠ .plain) :
    ∃ style, theme.style? kind = some style :=
  Option.ne_none_iff_exists'.mp (mt (theme.style?_eq_none_iff kind).mp h)

/-- The attributes of a line come from its annotations alone. -/
theorem attributes_ofText (theme : Theme) (node : LineNode) (spans : List Span) (text : List Char) :
    (ListedLine.ofText theme node spans text).attributes
      = ListedLine.attributes ⟨node.classes, node.properties, []⟩ := by
  rw [ListedLine.attributes, ListedLine.attributes]
  rfl

section Filling

variable {annotate : Annotation} (theme : Theme)

/-- A token is its template, filled in. -/
theorem markup_token_template (token : Token) :
    StyledToken.markup ⟨theme.style? token.kind, token.text⟩
      = token.template.flatMap (Stretch.written theme) := by
  unfold Token.template
  by_cases hkind : token.kind = .plain
  · rw [if_pos hkind, (theme.style?_eq_none_iff token.kind).mpr hkind]
    exact (List.append_nil _).symm
  · obtain ⟨style, hstyle⟩ := theme.exists_style hkind
    have hcss : (Stretch.tokenStyle token.kind).written theme = style.css := by
      rw [Stretch.written, hstyle]
      rfl
    have happend : ∀ opening value content : List Char,
        opening ++ value ++ content = opening ++ (value ++ (content ++ [])) := by
      simp
    rw [if_neg hkind, hstyle, markup_styled, ← hcss]
    exact happend _ _ _

/-- A line is its template, filled in. -/
theorem markup_line_template (node : LineNode) (spans : List Span) (text : List Char) :
    (ListedLine.ofText theme node spans text).markup
      = (lineTemplate node spans text).flatMap (Stretch.written theme) := by
  have htokens : (ListedLine.ofText theme node spans text).tokens.flatMap StyledToken.markup
      = ((tokens (kindAt spans) 0 text).flatMap Token.template).flatMap (Stretch.written theme) := by
    rw [ListedLine.ofText, List.flatMap_map, List.flatMap_assoc]
    exact List.flatMap_congr fun token _ => markup_token_template theme token
  have happend : ∀ opening attributes bracket content closing : List Char,
      opening ++ attributes ++ bracket ++ content ++ closing
        = opening ++ attributes ++ bracket ++ [] ++ content ++ (closing ++ []) := by
    simp
  have hmarkup : (ListedLine.ofText theme node spans text).markup
      = spanElement (ListedLine.attributes ⟨node.classes, node.properties, []⟩)
        (((tokens (kindAt spans) 0 text).flatMap Token.template).flatMap (Stretch.written theme)) :=
    congrArg₂ spanElement (attributes_ofText theme node spans text) htokens
  rw [hmarkup, lineTemplate, List.flatMap_append, List.flatMap_append]
  exact happend _ _ _ _ _

theorem markup_lines_template (number : Nat) (spans : List (List Span)) (texts : List (List Char)) :
    (listLines theme annotate number spans texts).map ListedLine.markup
      = (lineTemplates annotate number spans texts).map (·.flatMap (Stretch.written theme)) := by
  induction texts generalizing number spans with
  | nil => rfl
  | cons text rest ih =>
    rw [listLines, lineTemplates, List.map_cons, List.map_cons, ih, markup_line_template]

/-- Filling in a joined template joins what was filled in. -/
theorem written_join (templates : List (List Stretch)) :
    (Text.join (.fixed ['\n']) templates).flatMap (Stretch.written theme)
      = Text.join '\n' (templates.map (·.flatMap (Stretch.written theme))) := by
  induction templates with
  | nil => rfl
  | cons first rest ih =>
    rcases rest with _ | ⟨second, rest⟩
    · rfl
    · have hjoin : Text.join (.fixed ['\n']) (first :: second :: rest)
          = first ++ .fixed ['\n'] :: Text.join (.fixed ['\n']) (second :: rest) := rfl
      rw [hjoin, List.flatMap_append, List.flatMap_cons, ih]
      rfl

/-- **A block is a template, filled in by the theme**, and the template depends on the rest alone. -/
theorem markup_ofCode_template (code : List Char) (spans : List (List Span)) (annotate : Annotation) :
    (Listing.ofCode code spans theme annotate).markup.toList
      = (blockTemplate code spans annotate).flatMap (Stretch.written theme) := by
  have hlines : (Listing.ofCode code spans theme annotate).lines.map ListedLine.markup
      = (lineTemplates annotate 1 spans (Text.lines code)).map (·.flatMap (Stretch.written theme)) :=
    markup_lines_template theme 1 spans (Text.lines code)
  have happend : ∀ pre name style colours last lines closing : List Char,
      pre ++ name ++ style ++ colours ++ last ++ lines ++ closing
        = pre ++ (name ++ (style ++ (colours ++ (last ++ [])))) ++ lines ++ (closing ++ []) := by
    simp
  rw [Listing.markup, String.toList_ofList, opening_block, hlines, blockTemplate, List.flatMap_append,
    List.flatMap_append, written_join]
  exact happend _ _ _ _ _ _ _

end Filling

/-! ## Erasing -/

/-- Where the reader of a markup is. -/
structure Reader where
  /-- how much of the mark of a styled token it has just read -/
  matched : Nat
  /-- whether it is in the value of a styled token's attribute -/
  inside : Bool
  deriving DecidableEq

/-- The reader after one more character. A mark has its first character nowhere else, so one that turns out to be
none can only be followed by one from the start. -/
def Reader.next (reader : Reader) (c : Char) : Reader :=
  let matched := if styleMark[reader.matched]? = some c then reader.matched + 1 else if c = '<' then 1 else 0
  if matched = styleMark.length then ⟨0, true⟩ else ⟨matched, reader.inside && c ≠ '"'⟩

/-- The reader after some text. -/
def Reader.past (reader : Reader) (text : List Char) : Reader :=
  text.foldl next reader

/-- A text without the values of styled tokens. -/
def eraseStyles (reader : Reader) : List Char → List Char
  | [] => []
  | c :: rest =>
    (if reader.inside ∧ c ≠ '"' then [] else [c]) ++ eraseStyles (reader.next c) rest

/-- A text without what comes before the first quotation mark. -/
def eraseValue (text : List Char) : List Char :=
  text.dropWhile (· ≠ '"')

/-- A block without the values behind what it opens with and what comes between the two, and without those of styled
tokens. -/
def eraseBlock (opening between markup : List Char) : List Char :=
  let named := eraseValue (markup.drop opening.length)
  let styled := eraseValue (named.drop between.length)
  markup.take opening.length ++ named.take between.length ++ eraseStyles ⟨0, false⟩ styled

/-- A block without its theme's name, the value of its style attribute and those of styled tokens. -/
def eraseThemed (markup : String) : List Char :=
  eraseBlock "<pre class=\"lark ".toList "\" style=\"".toList markup.toList

theorem eraseStyles_append (reader : Reader) (text rest : List Char) :
    eraseStyles reader (text ++ rest) = eraseStyles reader text ++ eraseStyles (reader.past text) rest := by
  induction text generalizing reader with
  | nil => rfl
  | cons c text ih =>
    rw [List.cons_append, eraseStyles, eraseStyles, ih, List.append_assoc]
    rfl

theorem Reader.past_append (reader : Reader) (text rest : List Char) :
    reader.past (text ++ rest) = (reader.past text).past rest :=
  List.foldl_append

/-- A tag opens the same way wherever the reader is. -/
theorem Reader.next_less (reader : Reader) : reader.next '<' = ⟨1, reader.inside⟩ := by
  have hfirst : ∀ place : Fin styleMark.length, styleMark[place] = '<' → place.val = 0 := by decide
  have hmatched : (if styleMark[reader.matched]? = some '<' then reader.matched + 1
      else if '<' = '<' then 1 else 0) = 1 := by
    split
    · rename_i hagain
      obtain ⟨hlt, hless⟩ := List.getElem?_eq_some_iff.mp hagain
      have hstart : reader.matched = 0 := hfirst ⟨reader.matched, hlt⟩ hless
      rw [hstart]
    · rfl
  have hlength : (1 : Nat) ≠ styleMark.length := by decide
  rw [Reader.next, hmatched, if_neg hlength]
  simp

/-- Past the mark of a styled token the reader is in its value, wherever it was before. -/
theorem Reader.past_styleMark (reader : Reader) : reader.past styleMark = ⟨0, true⟩ := by
  have hmark : styleMark = '<' :: "span style=\"".toList := by decide
  have hrest : ∀ inside, Reader.past ⟨1, inside⟩ "span style=\"".toList = ⟨0, true⟩ := by decide
  rw [hmark, past, List.foldl_cons, next_less]
  exact hrest reader.inside

/-- A value that brings no tags or quotation marks is erased, and the reader is in it to its end. -/
theorem eraseStyles_value {value : List Char} (hvalue : Text.Plain value) :
    eraseStyles ⟨0, true⟩ value = [] ∧ Reader.past ⟨0, true⟩ value = ⟨0, true⟩ := by
  induction value with
  | nil => exact ⟨rfl, rfl⟩
  | cons c rest ih =>
    have hplain := hvalue c List.mem_cons_self
    simp only [List.mem_cons, List.not_mem_nil, or_false, not_or] at hplain
    obtain ⟨hless, -, hquote, -⟩ := hplain
    have hnone : styleMark[0]? ≠ some c := fun hagain => hless (Option.some.inj hagain).symm
    have hlength : (0 : Nat) ≠ styleMark.length := by decide
    have hnext : Reader.next ⟨0, true⟩ c = ⟨0, true⟩ := by
      simp only [Reader.next, if_neg hnone, if_neg hless, if_neg hlength]
      simp [hquote]
    obtain ⟨herased, hpast⟩ := ih fun d hd => hvalue d (List.mem_cons_of_mem _ hd)
    rw [eraseStyles, Reader.past, List.foldl_cons, hnext, herased]
    exact ⟨by simp [hquote], hpast⟩

/-- Two texts that come to the same once the values of styled tokens are erased, for a reader who comes from anywhere
and goes on. -/
def SameErased (first second : List Char) : Prop :=
  ∀ reader, eraseStyles reader first = eraseStyles reader second ∧ reader.past first = reader.past second

namespace SameErased

theorem refl (text : List Char) : SameErased text text := fun _ => ⟨rfl, rfl⟩

theorem append {first second : List Char} {third fourth : List Char} (hleft : SameErased first second)
    (hright : SameErased third fourth) : SameErased (first ++ third) (second ++ fourth) := by
  intro reader
  obtain ⟨herased, hpast⟩ := hleft reader
  rw [eraseStyles_append, eraseStyles_append, Reader.past_append, Reader.past_append, herased, hpast]
  exact ⟨congrArg _ (hright _).1, (hright _).2⟩

/-- Tokens of one text in styles that bring no tags or quotation marks. -/
theorem styled {one other : List Char} (hone : Text.Plain one) (hother : Text.Plain other) :
    SameErased (styleMark ++ one) (styleMark ++ other) := by
  have hvalue : ∀ {value : List Char}, Text.Plain value → ∀ reader,
      eraseStyles reader (styleMark ++ value) = eraseStyles reader styleMark ∧
        reader.past (styleMark ++ value) = ⟨0, true⟩ := by
    intro value hplain reader
    obtain ⟨herased, hpast⟩ := eraseStyles_value hplain
    rw [eraseStyles_append, Reader.past_append, Reader.past_styleMark, herased, List.append_nil]
    exact ⟨rfl, hpast⟩
  intro reader
  obtain ⟨hfirst, hplace⟩ := hvalue hone reader
  obtain ⟨hsecond, hagain⟩ := hvalue hother reader
  exact ⟨hfirst.trans hsecond.symm, hplace.trans hagain.symm⟩

theorem flatMap {α : Type} {items : List α} {one other : α → List Char}
    (h : ∀ item ∈ items, SameErased (one item) (other item)) :
    SameErased (items.flatMap one) (items.flatMap other) := by
  induction items with
  | nil => exact .refl _
  | cons item rest ih =>
    rw [List.flatMap_cons, List.flatMap_cons]
    exact (h item List.mem_cons_self).append (ih fun other hmem => h other (List.mem_cons_of_mem _ hmem))

end SameErased

theorem eraseValue_append {value : List Char} (h : '"' ∉ value) (rest : List Char) :
    eraseValue (value ++ '"' :: rest) = '"' :: rest := by
  have hvalue : ∀ c ∈ value, decide (c ≠ '"') = true := by
    intro c hc
    refine decide_eq_true ?_
    rintro rfl
    exact h hc
  rw [eraseValue, List.dropWhile_append_of_pos hvalue, List.dropWhile_cons_of_neg (by decide)]

/-- What erasing leaves of a block. -/
theorem eraseBlock_append {opening between name colours last : List Char} (hname : '"' ∉ name)
    (hcolours : '"' ∉ colours) :
    eraseBlock opening ('"' :: between) (opening ++ (name ++ '"' :: (between ++ (colours ++ '"' :: last))))
      = opening ++ '"' :: between ++ eraseStyles ⟨0, false⟩ ('"' :: last) := by
  have hnamed : eraseValue ((opening ++ (name ++ '"' :: (between ++ (colours ++ '"' :: last)))).drop opening.length)
      = '"' :: between ++ (colours ++ '"' :: last) := by
    rw [List.drop_left, eraseValue_append hname]
    rfl
  rw [eraseBlock, hnamed, List.take_left, List.take_left, List.drop_left, eraseValue_append hcolours]

section Erasing

variable {one other : Theme}

/-- A token under two themes is styled in both or in none. -/
theorem sameErased_token (hone : one.Named) (hother : other.Named) (token : Token) :
    SameErased (StyledToken.markup ⟨one.style? token.kind, token.text⟩)
      (StyledToken.markup ⟨other.style? token.kind, token.text⟩) := by
  by_cases hkind : token.kind = .plain
  · rw [(one.style?_eq_none_iff _).mpr hkind, (other.style?_eq_none_iff _).mpr hkind]
    exact .refl _
  · obtain ⟨first, hfirst⟩ := one.exists_style hkind
    obtain ⟨second, hsecond⟩ := other.exists_style hkind
    rw [hfirst, hsecond, markup_styled, markup_styled]
    exact (SameErased.styled (hone.style hfirst) (hother.style hsecond)).append (.refl _)

/-- A line under two themes has the same attributes, and the same texts in the same spans. -/
theorem sameErased_line (hone : one.Named) (hother : other.Named) (node : LineNode) (spans : List Span)
    (text : List Char) :
    SameErased (ListedLine.ofText one node spans text).markup (ListedLine.ofText other node spans text).markup := by
  have htokens : SameErased ((ListedLine.ofText one node spans text).tokens.flatMap StyledToken.markup)
      ((ListedLine.ofText other node spans text).tokens.flatMap StyledToken.markup) := by
    rw [ListedLine.ofText, ListedLine.ofText, List.flatMap_map, List.flatMap_map]
    exact .flatMap fun token _ => sameErased_token hone hother token
  rw [ListedLine.markup, ListedLine.markup, attributes_ofText, attributes_ofText]
  exact ((SameErased.refl _).append htokens).append (.refl _)

theorem sameErased_lines (hone : one.Named) (hother : other.Named) (annotate : Annotation) (number : Nat)
    (spans : List (List Span)) (texts : List (List Char)) :
    SameErased (Text.join '\n' ((listLines one annotate number spans texts).map ListedLine.markup))
      (Text.join '\n' ((listLines other annotate number spans texts).map ListedLine.markup)) := by
  induction texts generalizing number spans with
  | nil => exact .refl _
  | cons text rest ih =>
    have hline := sameErased_line hone hother (annotate (.ofNumber number)) (spans.headD [])
      (Text.withoutReturn text)
    rcases rest with _ | ⟨next, rest⟩
    · exact hline
    · exact hline.append ((SameErased.refl ['\n']).append (ih (number + 1) spans.tail))

/-- What erasing leaves of a block, if its theme takes names from the page. -/
theorem eraseThemed_opening {theme : Theme} (htheme : theme.Named) {markup : String} {lines : List Char}
    (h : markup.toList = theme.blockOpening ++ lines) :
    eraseThemed markup = "<pre class=\"lark ".toList ++ '"' :: " style=\"".toList
      ++ eraseStyles ⟨0, false⟩ ('"' :: (" tabindex=\"0\"><code>".toList ++ lines)) := by
  have hbetween : "\" style=\"".toList = '"' :: " style=\"".toList := by decide
  have hlast : "\" tabindex=\"0\"><code>".toList = '"' :: " tabindex=\"0\"><code>".toList := by decide
  have hname : '"' ∉ escapedMarkup theme.name.toList := (Text.inert_escapedMarkup _).not_mem (by decide)
  have hcolours : '"' ∉ theme.blockStyle := fun hquote => htheme.colours _ hquote (by decide)
  have hopening : theme.blockOpening = "<pre class=\"lark ".toList ++ escapedMarkup theme.name.toList
      ++ ('"' :: " style=\"".toList) ++ theme.blockStyle ++ ('"' :: " tabindex=\"0\"><code>".toList) :=
    congrArg₂ (fun between last => "<pre class=\"lark ".toList ++ escapedMarkup theme.name.toList ++ between
      ++ theme.blockStyle ++ last) hbetween hlast
  have happend : ∀ pre name between colours last : List Char,
      pre ++ name ++ ('"' :: between) ++ colours ++ ('"' :: last) ++ lines
        = pre ++ (name ++ '"' :: (between ++ (colours ++ '"' :: (last ++ lines)))) := by
    simp
  have hmarkup := (h.trans (congrArg (· ++ lines) hopening)).trans (happend _ _ _ _ _)
  rw [eraseThemed, hmarkup, hbetween]
  exact eraseBlock_append hname hcolours

/-- **Without what the theme fills in, a block is the same under all themes** that take names from the page. -/
theorem eraseThemed_ofCode (hone : one.Named) (hother : other.Named) (code : List Char)
    (spans : List (List Span)) (annotate : Annotation) :
    eraseThemed (Listing.ofCode code spans one annotate).markup
      = eraseThemed (Listing.ofCode code spans other annotate).markup := by
  have hmarkup : ∀ theme : Theme, (Listing.ofCode code spans theme annotate).markup.toList
      = theme.blockOpening
        ++ (Text.join '\n' ((listLines theme annotate 1 spans (Text.lines code)).map ListedLine.markup)
          ++ Listing.closing) := by
    intro theme
    rw [Listing.markup, String.toList_ofList, opening_block]
    exact List.append_assoc _ _ _
  have hlines := (sameErased_lines hone hother annotate 1 spans (Text.lines code)).append
    (.refl Listing.closing)
  rw [eraseThemed_opening hone (hmarkup one), eraseThemed_opening hother (hmarkup other)]
  exact congrArg _ (((SameErased.refl ('"' :: " tabindex=\"0\"><code>".toList)).append hlines) ⟨0, false⟩).1

/-- The theme's name and the styles are gone, and the quotation marks around them are left. -/
example : eraseThemed "<pre class=\"lark a\" style=\"b\" tabindex=\"0\"><code><<span style=\"c\">d</span>"
    = "<pre class=\"lark \" style=\"\" tabindex=\"0\"><code><<span style=\"\">d</span>".toList := by
  decide

end Erasing

end CodeMarkup
