import Mathlib.Data.List.Forall2
import CodeMarkup.Proofs.Markup.Slicing
import CodeMarkup.Proofs.Text.Unescape
import CodeMarkup.Render.Request

/-!
# The visible text of a listing

Who reads a listing leaves out the tags and takes entities for the characters that they stand for. What
remains is the code: each line without the carriage return that may end it, with newlines between the
lines, whatever spans the lines are coloured by (`visible_listing`).

Tags are left out from front to back, so where a tag ends depends on all that was read before. Yet a piece
of markup that opens no tag without closing it reads the same in front of anything (`Reads`), and of such
pieces a listing is put together.
-/

namespace CodeMarkup

open Text (escapedMarkup unescaped)

/-! ## Leaving tags out -/

/-- A markup without its tags, read on from inside a tag or from outside. -/
def Text.withoutTags (inside : Bool) : List Char → List Char
  | [] => []
  | c :: rest =>
    if inside then withoutTags (c ≠ '>') rest
    else if c = '<' then withoutTags true rest
    else c :: withoutTags false rest

/-- Whether a text neither opens a tag nor closes one. -/
def Text.Tagless (text : List Char) : Prop :=
  '<' ∉ text ∧ '>' ∉ text

instance (text : List Char) : Decidable (Text.Tagless text) :=
  inferInstanceAs (Decidable (_ ∧ _))

/-- **A piece of markup reads as a text**, in front of anything. -/
def Reads (markup text : List Char) : Prop :=
  ∀ rest, Text.withoutTags false (markup ++ rest) = text ++ Text.withoutTags false rest

/-- The text that is visible in a markup. -/
def Text.visible (markup : List Char) : List Char :=
  unescaped (withoutTags false markup)

namespace Text

theorem tagless_nil : Tagless [] :=
  ⟨List.not_mem_nil, List.not_mem_nil⟩

theorem tagless_cons {c : Char} {rest : List Char} :
    Tagless (c :: rest) ↔ (c ≠ '<' ∧ c ≠ '>') ∧ Tagless rest := by
  simp only [Tagless, List.mem_cons, not_or]
  exact ⟨fun ⟨⟨h1, h2⟩, h3, h4⟩ => ⟨⟨Ne.symm h1, Ne.symm h3⟩, h2, h4⟩,
    fun ⟨⟨h1, h3⟩, h2, h4⟩ => ⟨⟨Ne.symm h1, h2⟩, Ne.symm h3, h4⟩⟩

theorem tagless_append {first second : List Char} :
    Tagless (first ++ second) ↔ Tagless first ∧ Tagless second := by
  simp only [Tagless, List.mem_append, not_or]
  exact and_and_and_comm

theorem tagless_flatMap {α : Type} {items : List α} {f : α → List Char} :
    Tagless (items.flatMap f) ↔ ∀ item ∈ items, Tagless (f item) := by
  simp only [Tagless, List.mem_flatMap, not_exists, not_and]
  exact ⟨fun h item hm => ⟨h.1 item hm, h.2 item hm⟩, fun h => ⟨fun item hm => (h item hm).1,
    fun item hm => (h item hm).2⟩⟩

/-- What was escaped has no tags. -/
theorem tagless_escapedMarkup (text : List Char) : Tagless (escapedMarkup text) := by
  refine tagless_flatMap.mpr fun c _ => ?_
  unfold markupChar entity?
  split
  · decide
  · decide
  · decide
  · decide
  · decide
  · rename_i _ hless hmore _ _
    exact tagless_cons.mpr ⟨⟨hless, hmore⟩, tagless_nil⟩

/-- The rest of a tag is left out. -/
theorem withoutTags_inside {tag : List Char} (h : Tagless tag) (rest : List Char) :
    withoutTags true (tag ++ '>' :: rest) = withoutTags false rest := by
  induction tag with
  | nil => rfl
  | cons c tag ih =>
    obtain ⟨⟨-, hc⟩, htag⟩ := tagless_cons.mp h
    rw [List.cons_append, withoutTags, if_pos rfl, decide_eq_true hc]
    exact ih htag

end Text

namespace Reads

theorem nil : Reads [] [] := fun _ => rfl

theorem append {first second text more : List Char} (hfirst : Reads first text)
    (hsecond : Reads second more) : Reads (first ++ second) (text ++ more) := by
  intro rest
  rw [List.append_assoc, hfirst, hsecond, List.append_assoc]

/-- A tag reads as nothing. -/
theorem tag {tag : List Char} (h : Text.Tagless tag) : Reads ('<' :: tag ++ ['>']) [] := by
  intro rest
  rw [List.cons_append, List.cons_append, List.append_assoc, List.singleton_append]
  exact Text.withoutTags_inside h rest

/-- A text without tags reads as itself. -/
theorem text {text : List Char} (h : Text.Tagless text) : Reads text text := by
  intro rest
  induction text with
  | nil => rfl
  | cons c text ih =>
    obtain ⟨⟨hc, -⟩, htext⟩ := Text.tagless_cons.mp h
    rw [List.cons_append, Text.withoutTags, if_neg Bool.false_ne_true, if_neg hc, ih htext,
      List.cons_append]

theorem flatMap {α : Type} {items : List α} {markup text : α → List Char}
    (h : ∀ item ∈ items, Reads (markup item) (text item)) :
    Reads (items.flatMap markup) (items.flatMap text) := by
  induction items with
  | nil => exact nil
  | cons item items ih =>
    rw [List.flatMap_cons, List.flatMap_cons]
    exact (h item List.mem_cons_self).append (ih fun other hm => h other (List.mem_cons_of_mem _ hm))

theorem join {separator : Char} {markups texts : List (List Char)}
    (hseparator : Text.Tagless [separator]) (h : List.Forall₂ Reads markups texts) :
    Reads (Text.join separator markups) (Text.join separator texts) := by
  induction h with
  | nil => exact nil
  | cons hfirst hrest ih =>
    cases hrest with
    | nil => exact hfirst
    | cons => exact hfirst.append ((Reads.text hseparator).append ih)

/-- A span reads as what is in it. -/
theorem spanElement {attributes content text : List Char} (hattributes : Text.Tagless attributes)
    (hcontent : Reads content text) : Reads (CodeMarkup.spanElement attributes content) text := by
  have hopen : Reads ("<span".toList ++ attributes ++ ['>']) [] :=
    Reads.tag (Text.tagless_append.mpr ⟨(by decide : Text.Tagless "span".toList), hattributes⟩)
  have hclose : Reads "</span>".toList [] := Reads.tag (by decide : Text.Tagless "/span".toList)
  have hspan := (hopen.append hcontent).append hclose
  rwa [List.nil_append, List.append_nil] at hspan

end Reads

/-! ## Attributes -/

theorem tagless_attributeText {name value : List Char} (hname : Text.Tagless name)
    (hvalue : Text.Tagless value) : Text.Tagless (attributeText name value) := by
  rw [attributeText, Text.tagless_append, Text.tagless_append, Text.tagless_append]
  exact ⟨⟨⟨Text.tagless_cons.mpr ⟨by decide, hname⟩, by decide⟩, hvalue⟩, by decide⟩

/-- The paints of a theme. -/
def Theme.paints (theme : Theme) : List Paint :=
  [theme.background, theme.foreground, theme.keywords.paint, theme.strings.paint, theme.numbers.paint,
    theme.comments.paint, theme.functions.paint, theme.types.paint, theme.variableNames.paint,
    theme.operators.paint, theme.punctuation.paint]

/-- The property of the page that a paint goes by, if it goes by one. -/
def Paint.property? : Paint → Option String
  | .color _ => none
  | .property name => some name

/-- Whether the names that a theme takes from the page neither open a tag nor close one. -/
def Theme.Tagless (theme : Theme) : Prop :=
  ∀ name ∈ theme.paints.filterMap Paint.property?, Text.Tagless name.toList

instance (theme : Theme) : Decidable theme.Tagless :=
  inferInstanceAs (Decidable (∀ _ ∈ _, _))

/-- Whether the names of the properties that lines are given neither open a tag nor close one. -/
def Annotation.Tagless (annotate : Annotation) : Prop :=
  ∀ number, ∀ property ∈ (annotate (.ofNumber number)).properties, Text.Tagless property.1.toList

/-- The characters that declarations are written with, besides the names of properties. -/
def Style.alphabet : List Char :=
  "abcdefghijklmnopqrstuvwxyz0123456789-#:;()".toList

theorem Color.mem_alphabet {color : Color} {c : Char} (h : c ∈ color.css) : c ∈ Style.alphabet := by
  have hdigit : ∀ value < 16, digit value ∈ Style.alphabet := by decide
  have hchannel : ∀ value, ∀ d ∈ channel value, d ∈ Style.alphabet := by
    intro value d hd
    have hvalue := value.toNat_lt
    rcases List.mem_cons.mp hd with rfl | hd
    · exact hdigit _ (by omega)
    · obtain rfl := List.mem_singleton.mp hd
      exact hdigit _ (Nat.mod_lt _ (by omega))
  rw [css, List.mem_append, List.mem_append, List.mem_cons] at h
  rcases h with ((rfl | hred) | hgreen) | hblue
  · decide
  · exact hchannel _ _ hred
  · exact hchannel _ _ hgreen
  · exact hchannel _ _ hblue

/-- A character of a paint of a theme is of the alphabet, or of a name that the theme takes from the page. -/
theorem Theme.mem_css_of_paint {theme : Theme} {paint : Paint} (hpaint : paint ∈ theme.paints) {c : Char}
    (h : c ∈ paint.css) :
    c ∈ Style.alphabet ∨ ∃ name ∈ theme.paints.filterMap Paint.property?, c ∈ name.toList := by
  cases paint with
  | color value => exact Or.inl (Color.mem_alphabet h)
  | property name =>
    rcases List.mem_append.mp h with h | hclose
    · rcases List.mem_append.mp h with hopen | hname
      · have hvar : "var(".toList ⊆ Style.alphabet := by decide
        exact Or.inl (hvar hopen)
      · exact Or.inr ⟨name, List.mem_filterMap.mpr ⟨.property name, hpaint, rfl⟩, hname⟩
    · obtain rfl := List.mem_singleton.mp hclose
      exact Or.inl (by decide)

theorem Theme.paint_mem_paints {theme : Theme} {kind : Kind} {style : Style}
    (h : theme.style? kind = some style) : style.paint ∈ theme.paints := by
  cases kind <;> simp only [Theme.style?, Option.some.injEq, reduceCtorEq] at h <;>
    subst h <;> simp only [Theme.paints, List.mem_cons, true_or, or_true]

/-- A character of a style of a theme is of the alphabet, or of a name that the theme takes from the page. -/
theorem Theme.mem_css_of_style {theme : Theme} {kind : Kind} {style : Style}
    (hstyle : theme.style? kind = some style) {c : Char} (h : c ∈ style.css) :
    c ∈ Style.alphabet ∨ ∃ name ∈ theme.paints.filterMap Paint.property?, c ∈ name.toList := by
  have hcolor : "color:".toList ⊆ Style.alphabet := by decide
  have hbold : (if style.bold then ";font-weight:bold".toList else []) ⊆ Style.alphabet := by
    split <;> decide
  have hitalic : (if style.italic then ";font-style:italic".toList else []) ⊆ Style.alphabet := by
    split <;> decide
  rcases List.mem_append.mp h with h | hmem
  · rcases List.mem_append.mp h with h | hmem
    · rcases List.mem_append.mp h with hmem | hmem
      · exact Or.inl (hcolor hmem)
      · exact theme.mem_css_of_paint (theme.paint_mem_paints hstyle) hmem
    · exact Or.inl (hbold hmem)
  · exact Or.inl (hitalic hmem)

theorem Theme.Tagless.paint {theme : Theme} (h : theme.Tagless) {paint : Paint}
    (hpaint : paint ∈ theme.paints) : Text.Tagless paint.css := by
  constructor <;> intro hmem
  · exact (theme.mem_css_of_paint hpaint hmem).elim (by decide) fun ⟨name, hname, hless⟩ =>
      (h name hname).1 hless
  · exact (theme.mem_css_of_paint hpaint hmem).elim (by decide) fun ⟨name, hname, hmore⟩ =>
      (h name hname).2 hmore

theorem Theme.Tagless.style {theme : Theme} (h : theme.Tagless) {kind : Kind} {style : Style}
    (hstyle : theme.style? kind = some style) : Text.Tagless style.css := by
  constructor <;> intro hmem
  · exact (theme.mem_css_of_style hstyle hmem).elim (by decide) fun ⟨name, hname, hless⟩ =>
      (h name hname).1 hless
  · exact (theme.mem_css_of_style hstyle hmem).elim (by decide) fun ⟨name, hname, hmore⟩ =>
      (h name hname).2 hmore

/-- The themes that come with a highlighter are without tags. -/
theorem tagless_of_mem_builtin : ∀ theme ∈ Theme.builtin, theme.Tagless := by decide

/-- A request gives each line one property. -/
theorem LineSet.properties_annotation (lines : LineSet) (number : Nat) :
    (lines.annotation (.ofNumber number)).properties = [(lineNumberProperty, toString number)] := by
  unfold LineSet.annotation
  dsimp only
  split
  · unfold LineNode.addClass
    split <;> rfl
  · rfl

/-- What a request does to its lines is without tags. -/
theorem LineSet.tagless_annotation (lines : LineSet) : Annotation.Tagless lines.annotation := by
  intro number property hproperty
  rw [lines.properties_annotation, List.mem_singleton] at hproperty
  subst hproperty
  exact (by decide : Text.Tagless lineNumberProperty.toList)

/-! ## What a listing reads as -/

section Listings

variable {theme : Theme} {annotate : Annotation} (htheme : theme.Tagless)
include htheme

/-- A token reads as its text, escaped. -/
theorem reads_token (token : Token) :
    Reads (StyledToken.markup ⟨theme.style? token.kind, token.text⟩) (escapedMarkup token.text) := by
  have htext := Reads.text (Text.tagless_escapedMarkup token.text)
  rw [StyledToken.markup]
  rcases hstyle : theme.style? token.kind with _ | style
  · exact htext
  · exact htext.spanElement (tagless_attributeText (by decide) (htheme.style hstyle))

/-- A line reads as its text, escaped. -/
theorem reads_line {node : LineNode}
    (hnode : ∀ property ∈ node.properties, Text.Tagless property.1.toList) (spans : List Span)
    (text : List Char) :
    Reads (ListedLine.ofText theme node spans text).markup (escapedMarkup text) := by
  have hattributes : Text.Tagless (ListedLine.ofText theme node spans text).attributes := by
    rw [ListedLine.attributes, Text.tagless_append, Text.tagless_flatMap]
    refine ⟨tagless_attributeText (by decide) (Text.tagless_escapedMarkup _), ?_⟩
    intro property hproperty
    exact tagless_attributeText (hnode property hproperty) (Text.tagless_escapedMarkup _)
  have htokens := Reads.flatMap fun token (_ : token ∈ tokens (kindAt spans) 0 text) =>
    reads_token htheme token
  have htext : (tokens (kindAt spans) 0 text).flatMap (fun token => escapedMarkup token.text)
      = escapedMarkup text := by
    have hassoc := @List.flatMap_assoc _ _ _ (tokens (kindAt spans) 0 text) Token.text Text.markupChar
    rw [flatMap_text_tokens] at hassoc
    exact hassoc.symm
  rw [htext] at htokens
  refine Reads.spanElement hattributes ?_
  rw [ListedLine.ofText, List.flatMap_map]
  exact htokens

/-- The lines of a listing read as the lines of the code, escaped, each without its carriage return. -/
theorem reads_lines (hannotate : Annotation.Tagless annotate) (number : Nat) (spans : List (List Span))
    (texts : List (List Char)) :
    List.Forall₂ Reads ((listLines theme annotate number spans texts).map ListedLine.markup)
      ((texts.map Text.withoutReturn).map escapedMarkup) := by
  induction texts generalizing number spans with
  | nil => exact .nil
  | cons text rest ih =>
    exact .cons (reads_line htheme (hannotate number) _ _) (ih (number + 1) spans.tail)

/-- The opening of a block reads as nothing. -/
theorem reads_opening (code : List Char) (spans : List (List Span)) :
    Reads (Listing.ofCode code spans theme annotate).opening [] := by
  have hname : Text.Tagless ("lark ".toList ++ escapedMarkup theme.name.toList) :=
    Text.tagless_append.mpr ⟨by decide, Text.tagless_escapedMarkup _⟩
  have hbackground := htheme.paint (show theme.background ∈ theme.paints by simp [Theme.paints])
  have hforeground := htheme.paint (show theme.foreground ∈ theme.paints by simp [Theme.paints])
  have hcolours : Text.Tagless ("background-color:".toList ++ theme.background.css
      ++ ";color:".toList ++ theme.foreground.css) := by
    rw [Text.tagless_append, Text.tagless_append, Text.tagless_append]
    exact ⟨⟨⟨by decide, hbackground⟩, by decide⟩, hforeground⟩
  have hpre := Reads.tag (Text.tagless_append.mpr ⟨Text.tagless_append.mpr ⟨Text.tagless_append.mpr
    ⟨(by decide : Text.Tagless "pre".toList),
      tagless_attributeText (by decide : Text.Tagless "class".toList) hname⟩,
      tagless_attributeText (by decide : Text.Tagless "style".toList) hcolours⟩,
      tagless_attributeText (by decide : Text.Tagless "tabindex".toList)
        (by decide : Text.Tagless ['0'])⟩)
  have hcode : Reads "<code>".toList [] := Reads.tag (by decide : Text.Tagless "code".toList)
  have hboth := hpre.append hcode
  rw [List.append_nil, List.append_assoc _ ['>']] at hboth
  exact hboth

/-- A listing reads as its code, escaped. -/
theorem reads_listing (hannotate : Annotation.Tagless annotate) (code : List Char)
    (spans : List (List Span)) :
    Reads (Listing.ofCode code spans theme annotate).markup.toList
      (escapedMarkup (Text.join '\n' ((Text.lines code).map Text.withoutReturn))) := by
  have hlines := Reads.join (by decide : Text.Tagless ['\n'])
    (reads_lines htheme hannotate 1 spans (Text.lines code))
  have hclose : Reads Listing.closing [] :=
    (Reads.tag (by decide : Text.Tagless "/code".toList)).append
      (Reads.tag (by decide : Text.Tagless "/pre".toList))
  have hopening : Reads (Listing.ofCode code spans theme annotate).opening [] :=
    reads_opening htheme code spans
  have hall := (hopening.append hlines).append hclose
  rw [List.nil_append, List.append_nil, ← Text.escapedMarkup_join rfl] at hall
  rw [Listing.markup, String.toList_ofList]
  exact hall

end Listings

/-- **No code is lost, doubled or altered by highlighting**, whatever spans the lines are coloured by. A
listing can be made by slices, all of them in range and between characters, and what is visible in its
markup is the code: its lines, each without the carriage return that may end it, with newlines between
them. -/
theorem visible_listing (code : List Char) (spans : List (List Span)) {theme : Theme}
    {annotate : Annotation} (htheme : theme.Tagless) (hannotate : Annotation.Tagless annotate) :
    Listing.sliced? code spans theme annotate = some (.ofCode code spans theme annotate) ∧
      Text.visible (Listing.ofCode code spans theme annotate).markup.toList
        = Text.join '\n' ((Text.lines code).map Text.withoutReturn) := by
  refine ⟨Listing.sliced?_eq code spans theme annotate, ?_⟩
  have hreads := reads_listing htheme hannotate code spans []
  rw [List.append_nil, Text.withoutTags, List.append_nil] at hreads
  rw [Text.visible, hreads, Text.unescaped_escapedMarkup]

/-- Spans that overlap, run past the line and cut a character, on a line with a carriage return. -/
theorem visible_listing_cut :
    Text.visible (Listing.ofCode "<é\r\n&".toList [[⟨0, 2, .keyword⟩, ⟨1, 9, .string⟩]]
      Theme.cssVariables (LineSet.annotation .empty)).markup.toList = "<é\n&".toList := by
  have hvisible := (visible_listing "<é\r\n&".toList [[⟨0, 2, .keyword⟩, ⟨1, 9, .string⟩]]
    (tagless_of_mem_builtin Theme.cssVariables (by simp [Theme.builtin])) (LineSet.tagless_annotation .empty)).2
  rw [hvisible]
  decide

end CodeMarkup
