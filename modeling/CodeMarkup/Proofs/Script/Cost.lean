import CodeMarkup.Proofs.Script.Quiet

/-!
# What loops cost

Some work yields the same value wherever it is done and does the same number of operations, which is all that it leaves
behind (`Costs`). Such costs add up: those of one thing after another, and those of the rounds of a loop. So a nest of loops
over literal arrays costs what its rounds do, which grows as a power of the depth (`costs_of_depth?`), and a short script
can do as many operations as it is allowed.
-/

namespace CodeMarkup.Script

variable {State : Type} {α β : Type} {host : Host State}

/-- Work that yields a value and does a number of operations, and nothing else, wherever that many are left. -/
def Costs (work : RunM State α) (value : α) (cost : Nat) : Prop :=
  ∀ memory : Memory State, memory.operations + cost ≤ mostOperations → work memory = .ok value (memory.later cost)

theorem Memory.later_later (memory : Memory State) (first second : Nat) :
    (memory.later first).later second = memory.later (first + second) := by
  simp only [later, Nat.add_assoc]

theorem costs_pure (value : α) : Costs (pure value : RunM State α) value 0 :=
  fun _ _ => rfl

theorem costs_tick (position : Position) : Costs (tick position : RunM State Unit) () 1 := by
  intro memory hmost
  rw [tick_apply, if_neg (Nat.not_lt.mpr hmost)]

theorem Costs.bind {first : RunM State α} {second : α → RunM State β} {value : α} {result : β} {cost rest : Nat}
    (hfirst : Costs first value cost) (hsecond : Costs (second value) result rest) :
    Costs (first >>= second) result (cost + rest) := by
  intro memory hmost
  have hbetween : (memory.later cost).operations = memory.operations + cost := rfl
  rw [bind_apply_of_ok (hfirst memory (by omega)), hsecond _ (by omega), Memory.later_later]

/-- What is made of a value afterwards costs nothing. -/
theorem Costs.yields {work : RunM State α} {value : α} {cost : Nat} (h : Costs work value cost) (f : α → β) :
    Costs (work >>= fun value => pure (f value)) (f value) cost := by
  have hbind : Costs (work >>= fun value => pure (f value)) (f value) (cost + 0) := h.bind (costs_pure (f value))
  exact hbind

/-- What begins with an operation costs one more. -/
theorem Costs.ticked {work : RunM State α} {value : α} {cost : Nat} (h : Costs work value cost) (position : Position) :
    Costs (tick position >>= fun _ => work) value (cost + 1) :=
  Nat.add_comm 1 cost ▸ (costs_tick position).bind h

/-- Work whose variables end with it costs the same. -/
theorem Costs.inScope {work : RunM State α} {value : α} {cost : Nat} (h : Costs work value cost) :
    Costs (inScope work) value cost := by
  intro memory hmost
  unfold CodeMarkup.Script.inScope
  rw [h memory hmost]
  simp [Memory.later]

/-- A round of a loop, whose variable no one sees afterwards, costs what is done before and after it is made. -/
theorem Costs.round {first : RunM State Unit} {work : RunM State α} {value : α} {before after : Nat}
    (hfirst : Costs first () before) (hwork : Costs work value after) (name : String) (item : Value) :
    Costs (CodeMarkup.Script.inScope do
      first
      declare name item
      let _ ← work) () (before + after) := by
  intro memory hmost
  have hsecond := hwork { memory.later before with scope := (name, item) :: memory.scope } (by
    simp only [Memory.later]
    omega)
  have hround : (do
      first
      declare name item
      let _ ← work : RunM State Unit) memory =
        .ok () ({ memory with scope := (name, item) :: memory.scope }.later (before + after)) := by
    rw [bind_apply_of_ok (hfirst memory (by omega))]
    have hrest : (work >>= fun _ => pure ()) { memory.later before with scope := (name, item) :: memory.scope } =
        .ok () ({ memory.later before with scope := (name, item) :: memory.scope }.later after) :=
      bind_apply_of_ok hsecond _
    simp only [Memory.later, Nat.add_assoc] at hrest ⊢
    exact hrest
  unfold CodeMarkup.Script.inScope
  rw [hround]
  simp [Memory.later]

theorem Costs.forEach {action : Value → RunM State Unit} {cost : Nat} (h : ∀ value, Costs (action value) () cost)
    (values : List Value) : Costs (forEach action values) () (values.length * cost) := by
  induction values with
  | nil =>
    rw [List.length_nil, Nat.zero_mul]
    exact costs_pure ()
  | cons value rest ih =>
    rw [List.length_cons, Nat.add_one_mul, Nat.add_comm]
    exact (h value).bind ih

/-! ## Loops over literals -/

/-- Whether an expression is a literal. -/
def Expr.isLiteral : Expr → Bool
  | .literal .. => true
  | _ => false

/-- An array of literals is an operation, and one for each of them. -/
theorem exists_costs_array (host : Host State) {items : List Expr} (h : items.all Expr.isLiteral) (position : Position) :
    ∃ values, values.length = items.length ∧
      Costs ((Expr.array items position).eval host) (.array values) (items.length + 1) := by
  have hall : ∃ values, values.length = items.length ∧ Costs (evalAll host items) values items.length := by
    induction items with
    | nil =>
      refine ⟨[], rfl, ?_⟩
      rw [evalAll]
      exact costs_pure []
    | cons expr rest ih =>
      rw [List.all_cons, Bool.and_eq_true] at h
      obtain ⟨values, hlength, hrest⟩ := ih h.2
      obtain ⟨value, hvalue⟩ : ∃ value, Costs (expr.eval host) value 1 := by
        cases expr with
        | literal value position =>
          refine ⟨value, ?_⟩
          rw [Expr.eval]
          exact (costs_pure value).ticked position
        | _ => cases h.1
      refine ⟨value :: values, congrArg (· + 1) hlength, ?_⟩
      rw [evalAll, List.length_cons, Nat.add_comm]
      exact hvalue.bind (hrest.yields (value :: ·))
  obtain ⟨values, hlength, hvalues⟩ := hall
  refine ⟨values, hlength, ?_⟩
  rw [Expr.eval]
  exact (hvalues.yields Value.array).ticked position

/-- How deep loops are nested in a statement, if each is over `width` literals and does nothing but the next one. The
literals stand in a sum with an empty array, since a loop that adds nothing up would be left out. -/
def depth? (width : Nat) : Statement → Option Nat
  | .each _ (.binary .plus (.array items _) (.array [] _) _) [] _ _ =>
    if items.length = width ∧ items.all Expr.isLiteral then some 0 else none
  | .each _ (.binary .plus (.array items _) (.array [] _) _) [inner] _ _ =>
    if items.length = width ∧ items.all Expr.isLiteral then (depth? width inner).map (· + 1) else none
  | _ => none

/-- What a nest of loops costs. -/
def nestCost (width : Nat) : Nat → Nat
  | 0 => width + 4 + width
  | depth + 1 => width + 4 + width * nestCost width depth

/-- The array of a loop. -/
theorem exists_costs_whole (host : Host State) {items : List Expr} (h : items.all Expr.isLiteral)
    (first second position : Position) :
    ∃ values, values.length = items.length ∧
      Costs ((Expr.binary .plus (.array items first) (.array [] second) position).eval host) (.array values)
        (items.length + 3) := by
  obtain ⟨values, hlength, hleft⟩ := exists_costs_array host h first
  have hempty : ([] : List Expr).all Expr.isLiteral := rfl
  obtain ⟨none, hnone, hright⟩ := exists_costs_array host hempty second
  obtain rfl := List.eq_nil_of_length_eq_zero hnone
  refine ⟨values ++ [], (congrArg List.length (List.append_nil values)).trans hlength, ?_⟩
  have hsum : Costs (do
      let left ← (Expr.array items first).eval host
      let right ← (Expr.array [] second).eval host
      orFailAt (Value.combine .plus left right) position) (.array (values ++ [])) (items.length + 1 + (1 + 0)) :=
    hleft.bind (hright.bind (costs_pure _))
  rw [Expr.eval]
  exact hsum.ticked position

/-- A loop costs its array and its rounds. -/
theorem costs_each {name : String} {whole : Expr} {body : List Statement} {inside : Position} {values : List Value}
    {cost before after : Nat} {value : Value} {first : RunM State Unit} (hwhole : Costs (whole.eval host) (.array values) cost)
    (hfirst : Costs first () before) (hbody : Costs (runAll host body) value after)
    (hround : ∀ item, (do
      if body.isEmpty then tick inside
      declare name item
      let _ ← runAll host body : RunM State Unit) = do
        first
        declare name item
        let _ ← runAll host body) (position : Position) :
    Costs ((Statement.each name whole body inside position).run host) .unit
      (cost + values.length * (before + after) + 1) := by
  have hrounds : Costs (forEach (fun item => inScope do
      first
      declare name item
      let _ ← runAll host body) values) () (values.length * (before + after)) :=
    .forEach (fun item => hfirst.round hbody name item) values
  rw [Statement.run]
  simp only [hround]
  exact (hwhole.bind (hrounds.yields fun _ => Value.unit)).ticked position

/-- **A nest of loops** costs what its rounds do. -/
theorem costs_of_depth? {width : Nat} {statement : Statement} {depth : Nat} (h : depth? width statement = some depth) :
    Costs (statement.run host) .unit (nestCost width depth) := by
  fun_induction depth? width statement generalizing depth with
  | case1 name items first second position inside loop hitems =>
    cases h
    obtain ⟨values, hlength, hwhole⟩ := exists_costs_whole host hitems.2 first second position
    have hbody : Costs (runAll host []) .unit 0 := by
      rw [runAll]
      exact costs_pure _
    have hcost : nestCost width 0 = items.length + 3 + values.length * (1 + 0) + 1 := by
      rw [nestCost, hlength, hitems.1]
      omega
    rw [hcost]
    exact costs_each hwhole (costs_tick inside) hbody (fun _ => rfl) loop
  | case3 name items first second position inner inside loop hitems ih =>
    obtain ⟨inward, hinward, rfl⟩ := Option.map_eq_some_iff.mp h
    obtain ⟨values, hlength, hwhole⟩ := exists_costs_whole host hitems.2 first second position
    have hbody : Costs (runAll host [inner]) .unit (nestCost width inward) := by
      rw [runAll]
      exact ih hinward
    have hcost : nestCost width (inward + 1) =
        items.length + 3 + values.length * (0 + nestCost width inward) + 1 := by
      rw [nestCost, hlength, hitems.1, Nat.zero_add]
      omega
    rw [hcost]
    exact costs_each hwhole (costs_pure ()) hbody (fun _ => rfl) loop
  | _ => cases h

end CodeMarkup.Script
