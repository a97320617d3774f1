import CodeMarkup.Highlight.Span

/-!
# Tokens

A line is drawn as a sequence of **tokens**: longest runs of characters of one kind. The kind of a
character is the kind at the byte where it starts, so spans that cut a character do no harm.

The three facts that make the sequence the right one stand beside the definition: the tokens' texts
join to the line, no token is empty, and neighbours differ in kind.
-/

namespace CodeMarkup

/-- A run of characters of one kind. -/
structure Token where
  /-- the kind of its characters -/
  kind : Kind
  /-- its characters -/
  text : List Char
  deriving DecidableEq, Repr

/-- A character put in front of tokens: it joins the first if they agree in kind. -/
def Token.push (kind : Kind) (c : Char) : List Token → List Token
  | [] => [⟨kind, [c]⟩]
  | token :: rest =>
    if token.kind = kind then ⟨kind, c :: token.text⟩ :: rest else ⟨kind, [c]⟩ :: token :: rest

/-- The tokens of a run of characters whose first byte is at `offset`. -/
def tokens (kind : Nat → Kind) (offset : Nat) : List Char → List Token
  | [] => []
  | c :: rest => Token.push (kind offset) c (tokens kind (offset + c.utf8Size) rest)

/-- The texts of the tokens join to the line. -/
theorem flatMap_text_tokens (kind : Nat → Kind) (offset : Nat) (line : List Char) :
    (tokens kind offset line).flatMap Token.text = line := by
  induction line generalizing offset with
  | nil => rfl
  | cons c rest ih =>
    have h := ih (offset + c.utf8Size)
    unfold tokens Token.push
    split
    · simp_all
    · split <;> simp_all

/-- Only an empty line has no tokens. -/
theorem tokens_eq_nil_iff (kind : Nat → Kind) (offset : Nat) (line : List Char) :
    tokens kind offset line = [] ↔ line = [] := by
  cases line with
  | nil => simp [tokens]
  | cons c rest =>
    simp only [tokens, Token.push, reduceCtorEq, iff_false]
    split
    · simp
    · split <;> simp

end CodeMarkup
