import CodeMarkup.Proofs.Script.Parts
import CodeMarkup.Script.Reader

/-!
# Statements in expressions

A statement can stand where an expression is expected, but only if it begins with a brace or with one of a few words, and
then it ends with a block. That is so in every script that reads (`nested_of_read?`): the functions that read call each
other, so it is shown of all of them at once, by induction on the bound on their nesting, and leaving out idle statements
keeps it. So it is enough to look at what a script calls, before using what holds of the parts of its run.
-/

namespace CodeMarkup.Script

/-- Whether each statement in an expression ends with a block. -/
abbrev Expr.isNested (expr : Expr) : Bool := expr.obeys (fun _ _ => true) Statement.endsWithBlock

/-- Whether each statement in some expressions does. -/
abbrev areNested (exprs : List Expr) : Bool := allObey (fun _ _ => true) Statement.endsWithBlock exprs

/-- Whether each statement in the expressions of a statement does. -/
abbrev Statement.isNested (statement : Statement) : Bool := statement.obeys (fun _ _ => true) Statement.endsWithBlock

/-- Whether each statement in the expressions of some statements does. -/
abbrev bodyIsNested (body : List Statement) : Bool := bodyObeys (fun _ _ => true) Statement.endsWithBlock body

/-! ## Reading -/

namespace Reader

/-- What is read, if anything is, has a property. -/
def Yields {α : Type} (property : α → Prop) (work : ReadM α) : Prop :=
  ∀ ⦃lexemes value rest⦄, work lexemes = some (value, rest) → property value

variable {α β : Type} {property : α → Prop} {property' : β → Prop}

theorem Yields.bind {first : ReadM α} {second : α → ReadM β} (hfirst : Yields property first)
    (hsecond : ∀ value, property value → Yields property' (second value)) : Yields property' (first >>= second) := by
  intro lexemes value rest h
  obtain ⟨⟨middle, between⟩, hdone, hrest⟩ := Option.bind_eq_some_iff.mp h
  exact hsecond middle (hfirst hdone) hrest

/-- What comes after something of no interest. -/
theorem yields_after {first : ReadM α} {second : α → ReadM β} (h : ∀ value, Yields property' (second value)) :
    Yields property' (first >>= second) := by
  intro lexemes value rest hdone
  obtain ⟨⟨middle, between⟩, -, hrest⟩ := Option.bind_eq_some_iff.mp hdone
  exact h middle hrest

theorem yields_pure {value : α} (h : property value) : Yields property (pure value : ReadM α) := by
  intro lexemes other rest hdone
  cases hdone
  exact h

/-- What is read depends on the tokens that come next. -/
theorem yields_get {second : List Lexeme → ReadM α}
    (h : ∀ lexemes value rest, second lexemes lexemes = some (value, rest) → property value) :
    Yields property (get >>= second) :=
  fun lexemes value rest hdone => h lexemes value rest hdone

theorem get_bind_apply (second : List Lexeme → ReadM α) (lexemes : List Lexeme) :
    (get >>= second) lexemes = second lexemes lexemes :=
  rfl

theorem yields_failure : Yields property (failure : ReadM α) := by
  intro lexemes value rest h
  cases h

/-- What is read unless it is refused. -/
theorem yields_unless {refused : Prop} [Decidable refused] {work : ReadM α} (h : Yields property work) :
    Yields property (if refused then (do failure; work) else work) := by
  split
  · exact yields_after fun _ => h
  · exact h

/-- Everything that is read within a bound is nested. -/
structure ReadsNested (fuel : Nat) : Prop where
  expr (level : Nat) : Yields (fun expr => expr.isNested) (expr fuel level)
  operations (level least : Nat) {left : Expr} :
    left.isNested → Yields (fun expr => expr.isNested) (operations fuel level least left)
  operand (level : Nat) : Yields (fun expr => expr.isNested) (operand fuel level)
  accesses (level : Nat) {whole : Expr} :
    whole.isNested → Yields (fun expr => expr.isNested) (accesses fuel level whole)
  items (level : Nat) (closing : Symbol) : Yields (fun exprs => areNested exprs) (items fuel level closing)
  named (level : Nat) (space : List String) (start : Position) (name : String) (position : Position) :
    Yields (fun expr => expr.isNested) (named fuel level space start name position)
  primary (level : Nat) : Yields (fun expr => expr.isNested) (primary fuel level)
  block (level : Nat) : Yields (fun block => bodyIsNested block.2) (block fuel level)
  statements (level : Nat) : Yields (fun body => bodyIsNested body) (statements fuel level)
  subject (level : Nat) : Yields (fun expr => expr.isNested) (subject fuel level)
  alternative (level : Nat) : Yields (fun body => bodyIsNested body) (alternative fuel level)
  statement (level : Nat) : Yields (fun statement => statement.isNested) (statement fuel level)

theorem isNested_combine {left right : Expr} (symbol : Symbol) (position : Position) (hleft : left.isNested)
    (hright : right.isNested) : (combine symbol left right position).isNested := by
  cases symbol <;> simp [combine, Expr.obeys, hleft, hright]

theorem isNested_negative {operand : Expr} (position : Position) (h : operand.isNested) :
    (negative operand position).isNested := by
  unfold negative
  split
  · split <;> simp [Expr.obeys]
  · simp [Expr.obeys]
  · simpa [Expr.obeys] using h

theorem areNested_of_target? {expr : Expr} {indexes : List Expr} {target : List String × String × Position × List Expr}
    (h : target? expr indexes = some target) (hexpr : expr.isNested) (hindexes : areNested indexes) :
    areNested target.2.2.2 := by
  fun_induction target? expr indexes with
  | case1 => cases h; exact hindexes
  | case2 indexes whole index _ ih =>
    rw [Expr.isNested, Expr.obeys, Bool.and_eq_true] at hexpr
    exact ih h hexpr.1 (by rw [areNested, allObey, Bool.and_eq_true]; exact ⟨hexpr.2, hindexes⟩)
  | case3 => cases h

theorem isNested_of_addend? {name : String} {value addend : Expr} {position : Position}
    (h : addend? name value = some (addend, position)) (hvalue : value.isNested) : addend.isNested := by
  unfold addend? at h
  split at h
  · split at h
    · cases h
      rw [Expr.isNested, Expr.obeys, Bool.and_eq_true] at hvalue
      exact hvalue.2
    · cases h
  · cases h

theorem yields_assignment {left value : Expr} (sign : Lexeme) (hleft : left.isNested) (hvalue : value.isNested) :
    Yields (fun statement => statement.isNested) (assignment left sign value) := by
  unfold assignment
  split
  · rename_i space name position indexes htarget
    have hindexes : areNested indexes := areNested_of_target? htarget hleft rfl
    have hassign {new : Expr} (hnew : new.isNested) (adding : Bool) (operator : Position) :
        (Statement.assign space name position indexes adding new operator).isNested := by
      rw [Statement.isNested, Statement.obeys, Bool.and_eq_true]
      exact ⟨hindexes, hnew⟩
    split
    · exact yields_pure (hassign hvalue _ _)
    · split
      · rename_i addend plus haddend
        split at haddend
        · exact yields_pure (hassign (isNested_of_addend? haddend hvalue) _ _)
        · cases haddend
      · exact yields_pure (hassign hvalue _ _)
  · exact yields_failure

/-- Where a statement begins like an operand, it ends with a block. -/
theorem endsWithBlock_of_statement {fuel level : Nat} {token : Token} {position : Position} {lexemes : List Lexeme}
    {statement : Statement} {rest : List Lexeme}
    (htoken : token ∈ [Token.symbol .openCurly, .word .ifWord, .word .forWord, .word .loopWord])
    (h : Reader.statement fuel level (⟨token, position⟩ :: lexemes) = some (statement, rest)) :
    statement.endsWithBlock := by
  cases fuel with
  | zero =>
    unfold Reader.statement at h
    cases h
  | succ fuel =>
    unfold Reader.statement at h
    obtain ⟨⟨level, between⟩, hdeeper, h⟩ := Option.bind_eq_some_iff.mp h
    obtain rfl : between = ⟨token, position⟩ :: lexemes := by
      unfold deeper at hdeeper
      split at hdeeper <;> cases hdeeper
      rfl
    simp only [List.mem_cons, List.not_mem_nil, or_false] at htoken
    rcases htoken with rfl | rfl | rfl | rfl <;> simp only [get_bind_apply] at h <;>
      refine (?_ : Yields (fun statement : Statement => statement.endsWithBlock) _) h
    case inl => exact yields_after fun _ => yields_pure rfl
    case inr.inl =>
      exact yields_after fun _ => yields_after fun condition => yields_unless <|
        yields_after fun _ => yields_after fun _ => yields_pure rfl
    case inr.inr.inl =>
      exact yields_after fun _ => yields_after fun _ => yields_after fun _ => yields_after fun whole => yields_unless <|
        yields_after fun _ => yields_pure rfl
    case inr.inr.inr => exact yields_after fun _ => yields_after fun _ => yields_pure rfl

variable {fuel : Nat}

theorem readsNested_zero : ReadsNested 0 := by
  refine ⟨?_, ?_, ?_, ?_, ?_, ?_, ?_, ?_, ?_, ?_, ?_, ?_⟩ <;> intros <;>
    simp only [Reader.expr, Reader.operations, Reader.operand, Reader.accesses, Reader.items, Reader.named, Reader.primary,
      Reader.block, Reader.statements, Reader.subject, Reader.alternative, Reader.statement, yields_failure]

theorem ReadsNested.succ (ih : ReadsNested fuel) : ReadsNested (fuel + 1) where
  expr level := by
    unfold Reader.expr
    exact yields_after fun level => (ih.operand level).bind fun left hleft => ih.operations level 0 hleft
  operations level least left hleft := by
    unfold Reader.operations
    refine yields_after fun symbol => ?_
    split
    · exact yields_pure hleft
    · rename_i symbol strength _
      split
      · exact yields_pure hleft
      · refine yields_after fun position => (ih.operand level).bind fun right hright =>
          (ih.operations level strength hright).bind fun right hright => ?_
        have hrest := ih.operations level least (isNested_combine symbol position hleft hright)
        split
        · exact yields_after fun _ => hrest
        · exact hrest
  operand level := by
    unfold Reader.operand
    refine yields_after fun level => yields_after fun symbol => ?_
    split
    · exact yields_after fun position => (ih.operand level).bind fun operand hoperand =>
        yields_pure (by simpa [Expr.obeys] using hoperand)
    · exact yields_after fun position => (ih.operand level).bind fun operand hoperand =>
        yields_pure (isNested_negative position hoperand)
    · exact (ih.primary level).bind fun whole hwhole => ih.accesses level hwhole
  accesses level whole hwhole := by
    unfold Reader.accesses
    refine yields_after fun symbol => ?_
    split
    · exact yields_pure hwhole
    · refine yields_after fun position => yields_after fun level' => (ih.expr level').bind fun index hindex =>
        yields_after fun _ => ?_
      split
      · exact ih.accesses level (by rw [Expr.isNested, Expr.obeys, Bool.and_eq_true]; exact ⟨hwhole, hindex⟩)
      · exact yields_failure
  items level closing := by
    unfold Reader.items
    refine yields_after fun closed => ?_
    split
    · exact yields_pure rfl
    · refine (ih.expr level).bind fun first hfirst => yields_after fun more => ?_
      split
      · exact (ih.items level closing).bind fun rest hrest =>
          yields_pure (by rw [areNested, allObey, Bool.and_eq_true]; exact ⟨hfirst, hrest⟩)
      · exact yields_after fun _ => yields_pure (by rw [areNested, allObey, Bool.and_eq_true]; exact ⟨hfirst, rfl⟩)
  named level space start name position := by
    unfold Reader.named
    refine yields_after fun symbol => ?_
    split
    · exact yields_after fun _ => yields_after fun inner => ih.named level _ _ inner.1 inner.2
    · exact yields_after fun _ => yields_after fun level' => (ih.items level' _).bind fun arguments harguments =>
        yields_pure (by rw [Expr.isNested, Expr.obeys, Bool.true_and]; exact harguments)
    · exact yields_pure rfl
  primary level := by
    unfold Reader.primary
    refine yields_get fun lexemes value rest h => ?_
    split at h
    case h_9 => cases h
    case h_5 | h_6 | h_7 | h_8 =>
      -- nothing was taken yet, so the statement begins with the token that was seen
      obtain ⟨⟨inner, between⟩, hinner, hrest⟩ := Option.bind_eq_some_iff.mp h
      have hends : inner.endsWithBlock := endsWithBlock_of_statement (by simp) hinner
      cases hrest
      rw [Expr.isNested, Expr.obeys, Bool.and_eq_true]
      exact ⟨hends, ih.statement level hinner⟩
    all_goals refine (?_ : Yields (fun expr : Expr => expr.isNested) _) h
    case h_1 => exact yields_after fun _ => yields_pure rfl
    case h_2 => exact yields_after fun _ => ih.named level _ _ _ _
    case h_3 =>
      refine yields_after fun _ => yields_after fun closed => ?_
      split
      · exact yields_pure rfl
      · exact yields_after fun level => (ih.expr level).bind fun inner hinner => yields_after fun _ => yields_pure hinner
    case h_4 =>
      exact yields_after fun _ => yields_after fun level => (ih.items level _).bind fun exprs hexprs =>
        yields_pure (by rw [Expr.isNested, Expr.obeys]; exact hexprs)
  block level := by
    unfold Reader.block
    exact yields_after fun level => yields_after fun position => (ih.statements level).bind fun body hbody =>
      yields_after fun _ => yields_pure hbody
  statements level := by
    unfold Reader.statements
    have hcons {first : Statement} (hfirst : first.isNested) :
        Yields (fun body => bodyIsNested body) (do return first :: (← Reader.statements fuel level)) :=
      (ih.statements level).bind fun rest hrest =>
        yields_pure (by rw [bodyIsNested, bodyObeys, Bool.and_eq_true]; exact ⟨hfirst, hrest⟩)
    refine yields_after fun lexemes => yields_after fun symbol => ?_
    split
    · exact yields_pure rfl
    · refine yields_after fun separated => ?_
      split
      · exact ih.statements level
      · refine (ih.statement level).bind fun first hfirst => yields_after fun separated => ?_
        split
        · exact hcons hfirst
        · refine yields_after fun lexemes => yields_after fun symbol => ?_
          split
          · exact hcons hfirst
          · exact yields_failure
  subject level := by
    unfold Reader.subject
    refine yields_after fun symbol => ?_
    split
    · exact yields_after fun _ => ih.expr level
    · exact ih.expr level
  alternative level := by
    unfold Reader.alternative
    refine yields_after fun word => ?_
    split
    · exact yields_pure rfl
    · refine yields_after fun _ => yields_after fun word => ?_
      split
      · exact (ih.statement level).bind fun statement hstatement =>
          yields_pure (by rw [bodyIsNested, bodyObeys, Bool.and_eq_true]; exact ⟨hstatement, rfl⟩)
      · exact (ih.block level).bind fun block hblock => yields_pure hblock
  statement level := by
    unfold Reader.statement
    refine yields_after fun level => yields_after fun lexemes => ?_
    split
    case h_1 => exact (ih.block level).bind fun block hblock => yields_pure hblock
    case h_2 =>
      refine yields_after fun _ => yields_after fun name => yields_after fun assigned => ?_
      split
      · exact (ih.expr level).bind fun value hvalue => yields_pure hvalue
      · exact yields_pure rfl
    case h_3 =>
      exact yields_after fun _ => (ih.subject level).bind fun condition hcondition => yields_unless <|
        (ih.block level).bind fun yes hyes => (ih.alternative level).bind fun no hno =>
          yields_pure (by
            simp only [Statement.isNested, Statement.obeys, Bool.and_eq_true]
            exact ⟨⟨hcondition, hyes⟩, hno⟩)
    case h_4 =>
      exact yields_after fun _ => yields_after fun _ => yields_after fun _ => (ih.subject level).bind fun whole hwhole =>
        yields_unless <| (ih.block level).bind fun body hbody =>
          yields_pure (by simp only [Statement.isNested, Statement.obeys, Bool.and_eq_true]; exact ⟨hwhole, hbody⟩)
    case h_5 => exact yields_after fun _ => (ih.block level).bind fun block hblock => yields_pure hblock
    case h_6 =>
      refine yields_after fun _ => yields_after fun symbol => ?_
      split
      · exact yields_pure rfl
      · exact yields_pure rfl
      · split
        · exact yields_pure rfl
        · exact (ih.expr level).bind fun value hvalue => yields_pure hvalue
    case h_7 =>
      refine yields_after fun _ => (ih.block level).bind fun body hbody =>
        yields_after fun _ => yields_after fun named => ?_
      have hhandler (name : Option String) (position : Position) : Yields
          (fun statement : Statement => statement.isNested)
          (do return Statement.attempt body.2 name (← Reader.block fuel level).2 position) :=
        (ih.block level).bind fun handler hhandler =>
          yields_pure (by simp only [Statement.isNested, Statement.obeys, Bool.and_eq_true]; exact ⟨hbody, hhandler⟩)
      dsimp only
      split
      · exact yields_after fun _ => yields_after fun _ => hhandler _ _
      · exact hhandler _ _
    case h_8 =>
      refine (ih.expr level).bind fun left hleft => yields_after fun symbol => ?_
      split
      · exact yields_after fun sign => (ih.expr level).bind fun value hvalue => yields_assignment sign hleft hvalue
      · exact yields_after fun sign => (ih.expr level).bind fun value hvalue => yields_assignment sign hleft hvalue
      · exact yields_pure hleft

theorem readsNested : (fuel : Nat) → ReadsNested fuel
  | 0 => readsNested_zero
  | fuel + 1 => (readsNested fuel).succ

end Reader

/-! ## Leaving out -/

theorem endsWithBlock_decide (condition : Expr) (yes no : List Statement) (position : Position) :
    (Statement.decide condition yes no position).endsWithBlock := by
  unfold Statement.decide
  split
  · rfl
  · rfl
  · split <;> rfl
  · rfl

theorem endsWithBlock_trim (valued : Bool) {statement : Statement} (h : statement.endsWithBlock) :
    (statement.trim valued).endsWithBlock := by
  cases statement with
  | compute | declare | assign | raise => cases h
  | block | each | forever =>
    rw [Statement.trim]
    rfl
  | branch =>
    rw [Statement.trim]
    exact endsWithBlock_decide ..
  | attempt =>
    rw [Statement.trim]
    split <;> rfl

theorem isNested_decideBoth {left right : Expr} (hleft : left.isNested) (hright : right.isNested) (position : Position) :
    (Expr.decideBoth left right position).isNested := by
  unfold Expr.decideBoth
  split
  · exact hright
  · rfl
  · exact hleft
  · rw [Expr.isNested, Expr.obeys, Bool.and_eq_true]
    exact ⟨hleft, hright⟩

theorem isNested_decideEither {left right : Expr} (hleft : left.isNested) (hright : right.isNested) (position : Position) :
    (Expr.decideEither left right position).isNested := by
  unfold Expr.decideEither
  split
  · exact hright
  · rfl
  · exact hleft
  · rw [Expr.isNested, Expr.obeys, Bool.and_eq_true]
    exact ⟨hleft, hright⟩

theorem isNested_decide {condition : Expr} {yes no : List Statement} (hcondition : condition.isNested)
    (hyes : bodyIsNested yes) (hno : bodyIsNested no) (position : Position) :
    (Statement.decide condition yes no position).isNested := by
  unfold Statement.decide
  split
  · exact hyes
  · exact hno
  · split
    · rfl
    · simp only [Statement.isNested, Statement.obeys, bodyObeys, Expr.obeys, Bool.and_true]
      exact hcondition
  · simp only [Statement.isNested, Statement.obeys, Bool.and_eq_true]
    exact ⟨⟨hcondition, hyes⟩, hno⟩

theorem bodyIsNested_before (valued : Bool) {first : Statement} (hfirst : first.isNested) (isLast : Bool)
    {rest : List Statement} (hrest : bodyIsNested rest) : bodyIsNested (first.before valued isLast rest) := by
  have hcons {rest : List Statement} (hrest : bodyIsNested rest) : bodyIsNested (first :: rest) := by
    rw [bodyIsNested, bodyObeys, Bool.and_eq_true]
    exact ⟨hfirst, hrest⟩
  unfold Statement.before
  split
  · split
    · rfl
    · exact hcons rfl
  · split
    · exact hrest
    · exact hcons hrest

mutual

theorem Expr.isNested_trim : (expr : Expr) → expr.isNested → expr.trim.isNested
  | .literal .., _ => by
    rw [Expr.trim]
    rfl
  | .place .., _ => by
    rw [Expr.trim]
    rfl
  | .call _ _ _ _ arguments, h => by
    rw [Expr.isNested, Expr.obeys, Bool.true_and] at h
    rw [Expr.trim, Expr.isNested, Expr.obeys, Bool.true_and]
    exact areNested_trimExprs arguments h
  | .array items _, h => by
    rw [Expr.isNested, Expr.obeys] at h
    rw [Expr.trim, Expr.isNested, Expr.obeys]
    exact areNested_trimExprs items h
  | .item whole index _, h => by
    rw [Expr.isNested, Expr.obeys, Bool.and_eq_true] at h
    rw [Expr.trim, Expr.isNested, Expr.obeys, Bool.and_eq_true]
    exact ⟨whole.isNested_trim h.1, index.isNested_trim h.2⟩
  | .signed _ operand _, h => by
    rw [Expr.isNested, Expr.obeys] at h
    rw [Expr.trim, Expr.isNested, Expr.obeys]
    exact operand.isNested_trim h
  | .binary _ left right _, h => by
    rw [Expr.isNested, Expr.obeys, Bool.and_eq_true] at h
    rw [Expr.trim, Expr.isNested, Expr.obeys, Bool.and_eq_true]
    exact ⟨left.isNested_trim h.1, right.isNested_trim h.2⟩
  | .both left right position, h => by
    rw [Expr.isNested, Expr.obeys, Bool.and_eq_true] at h
    rw [Expr.trim]
    exact isNested_decideBoth (left.isNested_trim h.1) (right.isNested_trim h.2) position
  | .either left right position, h => by
    rw [Expr.isNested, Expr.obeys, Bool.and_eq_true] at h
    rw [Expr.trim]
    exact isNested_decideEither (left.isNested_trim h.1) (right.isNested_trim h.2) position
  | .statement statement _, h => by
    rw [Expr.isNested, Expr.obeys, Bool.and_eq_true] at h
    rw [Expr.trim, Expr.isNested, Expr.obeys, Bool.and_eq_true]
    exact ⟨endsWithBlock_trim true h.1, Statement.isNested_trim true statement h.2⟩

theorem areNested_trimExprs : (exprs : List Expr) → areNested exprs → areNested (trimExprs exprs)
  | [], _ => by
    rw [trimExprs]
    rfl
  | expr :: rest, h => by
    rw [areNested, allObey, Bool.and_eq_true] at h
    rw [trimExprs, areNested, allObey, Bool.and_eq_true]
    exact ⟨expr.isNested_trim h.1, areNested_trimExprs rest h.2⟩

theorem Statement.isNested_trim (valued : Bool) : (statement : Statement) → statement.isNested →
    (statement.trim valued).isNested
  | .compute expr, h => by
    rw [Statement.isNested, Statement.obeys] at h
    rw [Statement.trim, Statement.isNested, Statement.obeys]
    exact expr.isNested_trim h
  | .declare _ value _, h => by
    rw [Statement.isNested, Statement.obeys] at h
    rw [Statement.trim, Statement.isNested, Statement.obeys]
    exact value.isNested_trim h
  | .assign _ _ _ indexes _ value _, h => by
    rw [Statement.isNested, Statement.obeys, Bool.and_eq_true] at h
    rw [Statement.trim, Statement.isNested, Statement.obeys, Bool.and_eq_true]
    exact ⟨areNested_trimExprs indexes h.1, value.isNested_trim h.2⟩
  | .block body _, h => by
    rw [Statement.isNested, Statement.obeys] at h
    rw [Statement.trim, Statement.isNested, Statement.obeys]
    exact bodyIsNested_trim valued body h
  | .branch condition yes no position, h => by
    simp only [Statement.isNested, Statement.obeys, Bool.and_eq_true] at h
    rw [Statement.trim]
    exact isNested_decide (condition.isNested_trim h.1.1) (bodyIsNested_trim valued yes h.1.2)
      (bodyIsNested_trim valued no h.2) position
  | .each _ whole body _ _, h => by
    rw [Statement.isNested, Statement.obeys, Bool.and_eq_true] at h
    rw [Statement.trim, Statement.isNested, Statement.obeys, Bool.and_eq_true]
    exact ⟨whole.isNested_trim h.1, bodyIsNested_trim false body h.2⟩
  | .forever body _ _, h => by
    rw [Statement.isNested, Statement.obeys] at h
    rw [Statement.trim, Statement.isNested, Statement.obeys]
    exact bodyIsNested_trim false body h
  | .raise value _, h => by
    rw [Statement.isNested, Statement.obeys] at h
    rw [Statement.trim, Statement.isNested, Statement.obeys]
    exact value.isNested_trim h
  | .attempt body _ handler _, h => by
    rw [Statement.isNested, Statement.obeys, Bool.and_eq_true] at h
    rw [Statement.trim]
    have hbody := bodyIsNested_trim false body h.1
    split
    · rfl
    · rw [Statement.isNested, Statement.obeys, Bool.and_eq_true]
      exact ⟨hbody, bodyIsNested_trim false handler h.2⟩

theorem bodyIsNested_trim (valued : Bool) : (body : List Statement) → bodyIsNested body → bodyIsNested (trim valued body)
  | [], _ => by
    rw [trim]
    rfl
  | first :: rest, h => by
    rw [bodyIsNested, bodyObeys, Bool.and_eq_true] at h
    rw [trim]
    exact bodyIsNested_before valued (first.isNested_trim valued h.1) _ (bodyIsNested_trim valued rest h.2)

end

/-- **What reads is nested.** A statement in an expression of a script ends with a block. -/
theorem nested_of_read? {script : String} {body : List Statement} (h : read? script = some body) : bodyIsNested body := by
  obtain ⟨lexemes, -, h⟩ := Option.bind_eq_some_iff.mp h
  obtain ⟨⟨whole, rest⟩, hwhole, h⟩ := Option.bind_eq_some_iff.mp h
  obtain ⟨_, -, h⟩ := Option.bind_eq_some_iff.mp h
  cases h
  exact bodyIsNested_trim true whole ((Reader.readsNested _).statements 0 hwhole)

/-! ## Calls in what is nested -/

variable {may : List String → String → Bool}

mutual

/-- An expression that is nested and calls only what may be called has only such statements in it as a run can have. -/
theorem Expr.obeys_of_isNested : (expr : Expr) → expr.isNested → expr.obeys may (fun _ => true) →
    expr.obeys may Statement.endsWithBlock
  | .literal .., _, _ | .place .., _, _ => by
    rw [Expr.obeys]
  | .call _ _ _ _ arguments, hnested, hmay => by
    rw [Expr.isNested, Expr.obeys, Bool.true_and] at hnested
    rw [Expr.obeys, Bool.and_eq_true] at hmay ⊢
    exact ⟨hmay.1, allObey_of_areNested arguments hnested hmay.2⟩
  | .array items _, hnested, hmay => by
    rw [Expr.isNested, Expr.obeys] at hnested
    rw [Expr.obeys] at hmay ⊢
    exact allObey_of_areNested items hnested hmay
  | .signed _ operand _, hnested, hmay => by
    rw [Expr.isNested, Expr.obeys] at hnested
    rw [Expr.obeys] at hmay ⊢
    exact operand.obeys_of_isNested hnested hmay
  | .item left right _, hnested, hmay | .binary _ left right _, hnested, hmay | .both left right _, hnested, hmay
  | .either left right _, hnested, hmay => by
    rw [Expr.isNested, Expr.obeys, Bool.and_eq_true] at hnested
    rw [Expr.obeys, Bool.and_eq_true] at hmay ⊢
    exact ⟨left.obeys_of_isNested hnested.1 hmay.1, right.obeys_of_isNested hnested.2 hmay.2⟩
  | .statement statement _, hnested, hmay => by
    rw [Expr.isNested, Expr.obeys, Bool.and_eq_true] at hnested
    rw [Expr.obeys, Bool.and_eq_true] at hmay ⊢
    exact ⟨hnested.1, statement.obeys_of_isNested hnested.2 hmay.2⟩

theorem allObey_of_areNested : (exprs : List Expr) → areNested exprs → allCallOnly may exprs →
    allObey may Statement.endsWithBlock exprs
  | [], _, _ => rfl
  | expr :: rest, hnested, hmay => by
    rw [areNested, allObey, Bool.and_eq_true] at hnested
    rw [allCallOnly, allObey, Bool.and_eq_true] at hmay
    rw [allObey, Bool.and_eq_true]
    exact ⟨expr.obeys_of_isNested hnested.1 hmay.1, allObey_of_areNested rest hnested.2 hmay.2⟩

theorem Statement.obeys_of_isNested : (statement : Statement) → statement.isNested → statement.obeys may (fun _ => true) →
    statement.obeys may Statement.endsWithBlock
  | .compute value, hnested, hmay | .declare _ value _, hnested, hmay | .raise value _, hnested, hmay => by
    rw [Statement.isNested, Statement.obeys] at hnested
    rw [Statement.obeys] at hmay ⊢
    exact value.obeys_of_isNested hnested hmay
  | .assign _ _ _ indexes _ value _, hnested, hmay => by
    rw [Statement.isNested, Statement.obeys, Bool.and_eq_true] at hnested
    rw [Statement.obeys, Bool.and_eq_true] at hmay ⊢
    exact ⟨allObey_of_areNested indexes hnested.1 hmay.1, value.obeys_of_isNested hnested.2 hmay.2⟩
  | .block body _, hnested, hmay | .forever body _ _, hnested, hmay => by
    rw [Statement.isNested, Statement.obeys] at hnested
    rw [Statement.obeys] at hmay ⊢
    exact bodyObeys_of_bodyIsNested body hnested hmay
  | .branch condition yes no _, hnested, hmay => by
    simp only [Statement.isNested, Statement.obeys, Bool.and_eq_true] at hnested hmay ⊢
    exact ⟨⟨condition.obeys_of_isNested hnested.1.1 hmay.1.1, bodyObeys_of_bodyIsNested yes hnested.1.2 hmay.1.2⟩,
      bodyObeys_of_bodyIsNested no hnested.2 hmay.2⟩
  | .each _ whole body _ _, hnested, hmay => by
    rw [Statement.isNested, Statement.obeys, Bool.and_eq_true] at hnested
    rw [Statement.obeys, Bool.and_eq_true] at hmay ⊢
    exact ⟨whole.obeys_of_isNested hnested.1 hmay.1, bodyObeys_of_bodyIsNested body hnested.2 hmay.2⟩
  | .attempt body _ handler _, hnested, hmay => by
    rw [Statement.isNested, Statement.obeys, Bool.and_eq_true] at hnested
    rw [Statement.obeys, Bool.and_eq_true] at hmay ⊢
    exact ⟨bodyObeys_of_bodyIsNested body hnested.1 hmay.1, bodyObeys_of_bodyIsNested handler hnested.2 hmay.2⟩

theorem bodyObeys_of_bodyIsNested : (body : List Statement) → bodyIsNested body → bodyObeys may (fun _ => true) body →
    bodyObeys may Statement.endsWithBlock body
  | [], _, _ => rfl
  | first :: rest, hnested, hmay => by
    rw [bodyIsNested, bodyObeys, Bool.and_eq_true] at hnested
    rw [bodyObeys, Bool.and_eq_true] at hmay ⊢
    exact ⟨first.obeys_of_isNested hnested.1 hmay.1, bodyObeys_of_bodyIsNested rest hnested.2 hmay.2⟩

end

end CodeMarkup.Script
