import Mathlib.Data.List.Chain
import CodeMarkup.Proofs.Markup.Slicing
import CodeMarkup.Theme.Builtin

/-!
# Runs of one kind

The tokens of a line group its characters by kind. What a grouping is can be said without the way it is made
(`Grouping`): no run is empty, the runs join to the line, each character of a run is of the run's kind, looked up at
the byte where the character starts, and neighbours differ in kind. The tokens are such a grouping
(`Grouping.of_tokens`), and there is no other (`Grouping.eq_tokens`). Both are proved along the line, one character
at a time.

So for every text, whatever spans it is coloured by, styling the line run by run is styling it character by character
(`grouping_ofText`).
-/

namespace CodeMarkup

open Text (byteLength escapedMarkup)

variable {kind : Nat → Kind} {offset : Nat} {line : List Char} {runs : List Token}

/-- **Runs group a line** whose first byte is at `offset`. -/
structure Grouping (kind : Nat → Kind) (offset : Nat) (line : List Char) (runs : List Token) : Prop where
  /-- no run is empty -/
  nonempty (run : Token) : run ∈ runs → run.text ≠ []
  /-- the runs join to the line -/
  joined : runs.flatMap Token.text = line
  /-- each character is of its run's kind -/
  uniform (front : List Token) (run : Token) (back : List Token) (before : List Char) (c : Char)
    (after : List Char) : runs = front ++ run :: back → run.text = before ++ c :: after →
    kind (offset + byteLength (front.flatMap Token.text ++ before)) = run.kind
  /-- neighbours differ in kind -/
  changing : runs.IsChain fun run next => run.kind ≠ next.kind

/-! ## Tokens are a grouping -/

/-- A character is put in front as a run of its own. -/
theorem Grouping.cons {c : Char} (h : Grouping kind (offset + c.utf8Size) line runs)
    (hchanging : ∀ next ∈ runs.head?, kind offset ≠ next.kind) :
    Grouping kind offset (c :: line) (⟨kind offset, [c]⟩ :: runs) := by
  constructor
  case nonempty =>
    intro run hmem
    rcases List.mem_cons.mp hmem with rfl | hmem
    · exact List.cons_ne_nil _ _
    · exact h.nonempty run hmem
  case joined => rw [List.flatMap_cons, h.joined, List.singleton_append]
  case uniform =>
    intro front run back before d after hruns htext
    rcases front with _ | ⟨first, front⟩
    · obtain ⟨rfl, -⟩ := List.cons.inj hruns
      obtain ⟨rfl, -⟩ | ⟨_, rfl, hrest⟩ := List.cons_eq_append_iff.mp htext
      · rfl
      · exact absurd hrest.symm (List.append_ne_nil_of_right_ne_nil _ (List.cons_ne_nil _ _))
    · obtain ⟨rfl, hlater⟩ := List.cons.inj hruns
      have hrest := h.uniform front run back before d after hlater htext
      rwa [List.flatMap_cons, List.append_assoc, List.singleton_append, Text.byteLength_cons,
        ← Nat.add_assoc]
  case changing => exact h.changing.cons hchanging

/-- A character is put in front of a run of its kind. -/
theorem Grouping.extend {c : Char} {token : Token}
    (h : Grouping kind (offset + c.utf8Size) line (token :: runs)) (hkind : token.kind = kind offset) :
    Grouping kind offset (c :: line) (⟨kind offset, c :: token.text⟩ :: runs) := by
  constructor
  case nonempty =>
    intro run hmem
    rcases List.mem_cons.mp hmem with rfl | hmem
    · exact List.cons_ne_nil _ _
    · exact h.nonempty run (List.mem_cons_of_mem _ hmem)
  case joined => rw [← h.joined, List.flatMap_cons, List.flatMap_cons, List.cons_append]
  case uniform =>
    intro front run back before d after hruns htext
    rcases front with _ | ⟨first, front⟩
    · obtain ⟨rfl, rfl⟩ := List.cons.inj hruns
      obtain ⟨rfl, -⟩ | ⟨before, rfl, hlater⟩ := List.cons_eq_append_iff.mp htext
      · rfl
      · have hrest := h.uniform [] token runs before d after rfl hlater
        rw [List.flatMap_nil, List.nil_append] at hrest ⊢
        rw [Text.byteLength_cons, ← Nat.add_assoc, hrest, hkind]
    · obtain ⟨rfl, rfl⟩ := List.cons.inj hruns
      have hrest := h.uniform (token :: front) run back before d after rfl htext
      rwa [List.flatMap_cons, List.append_assoc, List.cons_append, Text.byteLength_cons, ← Nat.add_assoc,
        ← List.append_assoc, ← List.flatMap_cons]
  case changing =>
    cases runs with
    | nil => exact .singleton _
    | cons next rest =>
      obtain ⟨hne, hrest⟩ := List.isChain_cons_cons.mp h.changing
      exact List.isChain_cons_cons.mpr ⟨hkind ▸ hne, hrest⟩

/-- **The tokens of a line group it.** -/
theorem Grouping.of_tokens (kind : Nat → Kind) (offset : Nat) (line : List Char) :
    Grouping kind offset line (tokens kind offset line) := by
  induction line generalizing offset with
  | nil =>
    have hnone : ∀ (front back : List Token) (run : Token), tokens kind offset [] ≠ front ++ run :: back := by
      simp [tokens]
    exact ⟨fun run hmem => absurd hmem List.not_mem_nil, rfl,
      fun front run back _ _ _ hruns => absurd hruns (hnone front back run), .nil⟩
  | cons c rest ih =>
    have hrest := ih (offset + c.utf8Size)
    rw [tokens]
    rcases htokens : tokens kind (offset + c.utf8Size) rest with _ | ⟨token, others⟩
    · rw [htokens] at hrest
      exact hrest.cons fun next hnext => absurd hnext (Option.not_mem_none next)
    · rw [htokens] at hrest
      rw [Token.push]
      split
      · rename_i hkind
        exact hrest.extend hkind
      · rename_i hkind
        refine hrest.cons fun next hnext => ?_
        obtain rfl := Option.some.inj hnext
        exact Ne.symm hkind

/-! ## No other grouping -/

theorem Grouping.eq_nil (h : Grouping kind offset [] runs) : runs = [] := by
  cases runs with
  | nil => rfl
  | cons run rest =>
    have htext := (List.append_eq_nil_iff.mp (List.flatMap_cons ▸ h.joined)).1
    exact absurd htext (h.nonempty run List.mem_cons_self)

/-- The first run of a grouping begins with the first character, and is of its kind. -/
theorem Grouping.head {c : Char} (h : Grouping kind offset (c :: line) runs) :
    ∃ text rest, runs = ⟨kind offset, c :: text⟩ :: rest := by
  rcases runs with _ | ⟨⟨own, text⟩, rest⟩
  · cases h.joined
  · rcases text with _ | ⟨d, text⟩
    · exact absurd rfl (h.nonempty _ List.mem_cons_self)
    · obtain ⟨rfl, -⟩ := List.cons.inj h.joined
      have hkind := h.uniform [] _ rest [] d text rfl rfl
      obtain rfl : kind offset = own := hkind
      exact ⟨text, rest, rfl⟩

/-- A first run of one character is taken away. -/
theorem Grouping.tail {c : Char} {own : Kind} (h : Grouping kind offset (c :: line) (⟨own, [c]⟩ :: runs)) :
    Grouping kind (offset + c.utf8Size) line runs := by
  constructor
  case nonempty => exact fun run hmem => h.nonempty run (List.mem_cons_of_mem _ hmem)
  case joined => exact (List.cons.inj h.joined).2
  case uniform =>
    intro front run back before d after hruns htext
    have hwhole := h.uniform (⟨own, [c]⟩ :: front) run back before d after (hruns ▸ rfl) htext
    rwa [List.flatMap_cons, List.append_assoc, List.singleton_append, Text.byteLength_cons,
      ← Nat.add_assoc] at hwhole
  case changing => exact h.changing.tail

/-- The first character of a longer run is taken away. -/
theorem Grouping.shorten {c d : Char} {own : Kind} {text : List Char}
    (h : Grouping kind offset (c :: line) (⟨own, c :: d :: text⟩ :: runs)) :
    Grouping kind (offset + c.utf8Size) line (⟨own, d :: text⟩ :: runs) := by
  constructor
  case nonempty =>
    intro run hmem
    rcases List.mem_cons.mp hmem with rfl | hmem
    · exact List.cons_ne_nil _ _
    · exact h.nonempty run (List.mem_cons_of_mem _ hmem)
  case joined => exact (List.cons.inj h.joined).2
  case uniform =>
    intro front run back before e after hruns htext
    rcases front with _ | ⟨first, front⟩
    · obtain ⟨rfl, rfl⟩ := List.cons.inj hruns
      have hwhole := h.uniform [] _ runs (c :: before) e after rfl (congrArg (List.cons c) htext)
      rwa [List.flatMap_nil, List.nil_append, Text.byteLength_cons, ← Nat.add_assoc] at hwhole
    · obtain ⟨rfl, rfl⟩ := List.cons.inj hruns
      have hwhole := h.uniform (⟨own, c :: d :: text⟩ :: front) run back before e after rfl htext
      rw [List.flatMap_cons, List.append_assoc, List.cons_append, Text.byteLength_cons, ← Nat.add_assoc,
        ← List.append_assoc] at hwhole
      rwa [List.flatMap_cons]
  case changing =>
    cases runs with
    | nil => exact .singleton _
    | cons next rest => exact List.isChain_cons_cons.mpr (List.isChain_cons_cons.mp h.changing)

/-- **Every grouping of a line is its tokens.** -/
theorem Grouping.eq_tokens (h : Grouping kind offset line runs) : runs = tokens kind offset line := by
  induction line generalizing offset runs with
  | nil => exact h.eq_nil
  | cons c line ih =>
    obtain ⟨text, rest, rfl⟩ := h.head
    rcases text with _ | ⟨d, text⟩
    · -- the character is a run of its own, so the next run is of another kind
      rw [tokens, ← ih h.tail]
      cases rest with
      | nil => rfl
      | cons next rest =>
        have hne := (List.isChain_cons_cons.mp h.changing).1
        rw [Token.push, if_neg (Ne.symm hne)]
    · rw [tokens, ← ih h.shorten, Token.push, if_pos rfl]

/-! ## Lines -/

/-- What is put around some content makes it longer. -/
theorem ne_of_surrounded (front : List Char) (c : Char) (content back : List Char) :
    front ++ [c] ++ content ++ back ≠ content := by
  intro h
  have hlength := congrArg List.length h
  simp only [List.length_append, List.length_singleton] at hlength
  omega

/-- An element is not its content. -/
theorem spanElement_ne (attributes content : List Char) : spanElement attributes content ≠ content :=
  ne_of_surrounded ("<span".toList ++ attributes) '>' content "</span>".toList

/-- A run is inside a span of its kind's style if it is not plain, and bare if it is. -/
theorem StyledToken.markup_run (theme : Theme) (run : Token) :
    (run.kind ≠ .plain ↔ ∃ style, theme.style? run.kind = some style ∧
      markup ⟨theme.style? run.kind, run.text⟩
        = spanElement (attributeText "style".toList style.css) (escapedMarkup run.text)) ∧
    (run.kind = .plain ↔ markup ⟨theme.style? run.kind, run.text⟩ = escapedMarkup run.text) := by
  rcases hstyle : theme.style? run.kind with _ | style
  · have hplain := (theme.style?_eq_none_iff run.kind).mp hstyle
    exact ⟨iff_of_false (not_not.mpr hplain) nofun, iff_of_true hplain rfl⟩
  · have hkind : run.kind ≠ .plain := fun hplain =>
      Option.some_ne_none style (hstyle.symm.trans ((theme.style?_eq_none_iff run.kind).mpr hplain))
    exact ⟨iff_of_true hkind ⟨style, rfl, rfl⟩, iff_of_false hkind (spanElement_ne _ _)⟩

/-- **Styling run by run is styling character by character**, for every text, theme and list of spans.

What a line is written as is its runs, one after another, inside the line's element. The runs are a grouping of the
text by the kind that the spans give each character, and the only one; they are the slices of the text between the
offsets where the kind changes. There is none only if the text is empty. A run is written inside a span of its kind's
style, or bare, and bare exactly if it is plain. -/
theorem grouping_ofText (theme : Theme) (node : LineNode) (spans : List Span) (text : List Char) :
    ∃ runs, Grouping (kindAt spans) 0 text runs ∧
      (∀ others, Grouping (kindAt spans) 0 text others → others = runs) ∧
      sliceTokens? (kindAt spans) text 0 none 0 text = some runs ∧ (runs = [] ↔ text = []) ∧
      (ListedLine.ofText theme node spans text).markup
        = spanElement (ListedLine.ofText theme node spans text).attributes
          (runs.flatMap fun run => StyledToken.markup ⟨theme.style? run.kind, run.text⟩) ∧
      ∀ run ∈ runs,
        (run.kind ≠ .plain ↔ ∃ style, theme.style? run.kind = some style ∧
          StyledToken.markup ⟨theme.style? run.kind, run.text⟩
            = spanElement (attributeText "style".toList style.css) (escapedMarkup run.text)) ∧
        (run.kind = .plain ↔
          StyledToken.markup ⟨theme.style? run.kind, run.text⟩ = escapedMarkup run.text) := by
  refine ⟨tokens (kindAt spans) 0 text, .of_tokens _ _ _, fun others h => h.eq_tokens,
    sliceTokens?_eq_tokens _ _, tokens_eq_nil_iff _ _ _, ?_, fun run _ =>
      StyledToken.markup_run theme run⟩
  rw [ListedLine.markup, ListedLine.ofText, List.flatMap_map]

/-- A span that ends inside a character, and one that begins there and overlaps it. -/
def cutting : List Span := [⟨0, 2, .keyword⟩, ⟨1, 3, .string⟩]

/-- A character goes by its first byte, and by the first span over that. -/
theorem grouping_ofText_cutting : ∃ runs, Grouping (kindAt cutting) 0 ['a', 'é', 'b'] runs ∧
    runs = [⟨.keyword, ['a', 'é']⟩, ⟨.plain, ['b']⟩] := by
  obtain ⟨runs, hruns, -, hslices, -⟩ :=
    grouping_ofText Theme.cssVariables (.ofNumber 1) cutting ['a', 'é', 'b']
  exact ⟨runs, hruns, Option.some.inj (hslices.symm.trans rfl)⟩

end CodeMarkup
