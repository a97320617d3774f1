import CodeMarkup.Proofs.Markup.VisibleText

/-!
# Inert texts

A text is **inert** inside markup if no reader can take any of it for a tag, for the end of an attribute or for
the beginning of an unknown entity. What was escaped is inert, and so is whatever has none of the characters
that are escaped (`Text.Plain`), as the style declarations of a theme do if the names that it takes from the
page are names at all (`Theme.Named`).
-/

namespace CodeMarkup

namespace Text

/-- The five entities. -/
def entities : List (List Char) :=
  ["&amp;".toList, "&lt;".toList, "&gt;".toList, "&quot;".toList, "&#39;".toList]

/-- Whether a text has no angle bracket and no quotation mark, and an ampersand only where one of the five
entities begins. -/
def Inert : List Char → Prop
  | [] => True
  | c :: rest => c ∉ ['<', '>', '"', '\''] ∧
      (c = '&' → ∃ entity ∈ entities, entity.isPrefixOf (c :: rest) = true) ∧ Inert rest

instance decidableInert : (text : List Char) → Decidable (Inert text)
  | [] => isTrue trivial
  | c :: rest =>
    have := decidableInert rest
    inferInstanceAs (Decidable (c ∉ _ ∧ (c = '&' → ∃ entity ∈ entities, _ = true) ∧ Inert rest))

/-- Whether a text has no character that is escaped. -/
def Plain (text : List Char) : Prop :=
  ∀ c ∈ text, c ∉ ['<', '>', '"', '\'', '&']

instance (text : List Char) : Decidable (Plain text) :=
  List.decidableBAll _ text

/-- A letter, a digit, a hyphen, or a character beyond ASCII. -/
def isNameChar (c : Char) : Bool :=
  c.isAlphanum || c = '-' || 0x80 ≤ c.toNat

/-- Whether a text is a name. -/
def IsName (text : List Char) : Prop :=
  ∀ c ∈ text, isNameChar c = true

instance (text : List Char) : Decidable (IsName text) :=
  List.decidableBAll _ text

/-! ## Inert texts -/

theorem inert_append {first second : List Char} (hfirst : Inert first) (hsecond : Inert second) :
    Inert (first ++ second) := by
  induction first with
  | nil => exact hsecond
  | cons c rest ih =>
    obtain ⟨hc, hamp, hrest⟩ := hfirst
    refine ⟨hc, fun h => ?_, ih hrest⟩
    obtain ⟨entity, hmem, hbegins⟩ := hamp h
    refine ⟨entity, hmem, ?_⟩
    rw [List.isPrefixOf_iff_prefix] at hbegins ⊢
    exact hbegins.trans (List.prefix_append (c :: rest) second)

theorem inert_flatMap {α : Type} {items : List α} {f : α → List Char}
    (h : ∀ item ∈ items, Inert (f item)) : Inert (items.flatMap f) := by
  induction items with
  | nil => trivial
  | cons item items ih =>
    rw [List.flatMap_cons]
    exact inert_append (h item List.mem_cons_self) (ih fun other hm => h other (List.mem_cons_of_mem _ hm))

theorem Plain.inert {text : List Char} (h : Plain text) : Inert text := by
  induction text with
  | nil => trivial
  | cons c rest ih =>
    have hc := h c List.mem_cons_self
    refine ⟨fun hmem => hc (List.mem_append_left ['&'] hmem), ?_, ih fun d hd => h d (List.mem_cons_of_mem _ hd)⟩
    rintro rfl
    exact absurd hc (by decide)

theorem plain_append {first second : List Char} : Plain (first ++ second) ↔ Plain first ∧ Plain second :=
  List.forall_mem_append

/-- **What was escaped is inert.** -/
theorem inert_escapedMarkup (text : List Char) : Inert (escapedMarkup text) := by
  refine inert_flatMap fun c _ => ?_
  unfold markupChar entity?
  split
  · decide
  · decide
  · decide
  · decide
  · decide
  · rename_i hamp hless hmore hquote hsingle
    refine Plain.inert fun d hd hescaped => ?_
    obtain rfl := List.mem_singleton.mp hd
    simp only [List.mem_cons, List.not_mem_nil, or_false] at hescaped
    exact hescaped.elim hless (Or.elim · hmore (Or.elim · hquote (Or.elim · hsingle hamp)))

/-- What is inert has no angle bracket and no quotation mark. -/
theorem Inert.not_mem {text : List Char} (h : Inert text) {c : Char} (hc : c ∈ ['<', '>', '"', '\'']) :
    c ∉ text := by
  induction text with
  | nil => exact List.not_mem_nil
  | cons d rest ih =>
    rw [List.mem_cons, not_or]
    refine ⟨?_, ih h.2.2⟩
    rintro rfl
    exact h.1 hc

/-- What is inert opens no tag. -/
theorem Inert.not_mem_less {text : List Char} (h : Inert text) : '<' ∉ text :=
  h.not_mem List.mem_cons_self

/-- A name has no character that is escaped. -/
theorem IsName.plain {text : List Char} (h : IsName text) : Plain text := by
  intro c hc hescaped
  have hname := h c hc
  simp only [List.mem_cons, List.not_mem_nil, or_false] at hescaped
  rcases hescaped with rfl | rfl | rfl | rfl | rfl <;> exact absurd hname (by decide)

end Text

/-! ## Styles -/

/-- Whether what a theme takes from the page are names. -/
def Theme.Named (theme : Theme) : Prop :=
  ∀ name ∈ theme.paints.filterMap Paint.property?, Text.IsName name.toList

instance (theme : Theme) : Decidable theme.Named :=
  inferInstanceAs (Decidable (∀ _ ∈ _, _))

/-- Whether the properties that lines are given have names. -/
def Annotation.Named (annotate : Annotation) : Prop :=
  ∀ number, ∀ property ∈ (annotate (.ofNumber number)).properties, Text.IsName property.1.toList

theorem Style.plain_alphabet : Text.Plain Style.alphabet := by decide

theorem Theme.Named.paint {theme : Theme} (h : theme.Named) {paint : Paint}
    (hpaint : paint ∈ theme.paints) : Text.Plain paint.css := fun _ hmem =>
  (theme.mem_css_of_paint hpaint hmem).elim (Style.plain_alphabet _) fun ⟨name, hname, hc⟩ =>
    (h name hname).plain _ hc

theorem Theme.Named.style {theme : Theme} (h : theme.Named) {kind : Kind} {style : Style}
    (hstyle : theme.style? kind = some style) : Text.Plain style.css := fun _ hmem =>
  (theme.mem_css_of_style hstyle hmem).elim (Style.plain_alphabet _) fun ⟨name, hname, hc⟩ =>
    (h name hname).plain _ hc

/-- The declarations of a block have no character that is escaped. -/
theorem Theme.Named.colours {theme : Theme} (h : theme.Named) :
    Text.Plain ("background-color:".toList ++ theme.background.css ++ ";color:".toList
      ++ theme.foreground.css) := by
  have hbackground := h.paint (show theme.background ∈ theme.paints by simp [Theme.paints])
  have hforeground := h.paint (show theme.foreground ∈ theme.paints by simp [Theme.paints])
  rw [Text.plain_append, Text.plain_append, Text.plain_append]
  exact ⟨⟨⟨by decide, hbackground⟩, by decide⟩, hforeground⟩

/-- The themes that come with a highlighter take names from the page. -/
theorem named_of_mem_builtin : ∀ theme ∈ Theme.builtin, theme.Named := by decide

end CodeMarkup
