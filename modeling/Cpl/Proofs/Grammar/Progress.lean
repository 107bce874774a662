import Cpl.Proofs.Grammar.Descent
import Cpl.Proofs.Grammar.Programs

namespace Cpl

namespace Grammar

section Expressions
variable {tokens : List Token}

section Operands
variable {depth : Nat} {factors : Reader Expr tokens.length}
  (each : ∀ inside within, Agrees (Descent.factor depth) inside (factors inside within))
  (enough : tokens.length ≤ depth)
include each enough

/-- Both readers read the same terms, if they read the same factors. -/
theorem product_agrees : Agrees (Descent.term (depth + 1)) tokens (product tokens factors) := by
  rw [Descent.term]
  exact chain_agrees each enough

/-- Both readers read the same expressions, if they read the same factors. -/
theorem sum_agrees : Agrees (Descent.expression (depth + 2)) tokens (sum tokens factors) := by
  rw [Descent.expression]
  refine chain_agrees (fun inside within => ?_) (Nat.le_succ_of_le enough)
  exact product_agrees (fun _ _ => each _ _) (Nat.le_trans within enough)

/-- Both readers convert the same operands, if they read the same factors. -/
theorem castOperand_agrees (target : Scalar) :
    Agrees (Descent.cast (depth + 3) target) tokens (castOperand target tokens factors) := by
  rw [Descent.cast]
  have operand : Agrees (Descent.enclosed .cast (Descent.expression (depth + 2))) tokens
      (enclosed .cast tokens fun inner within =>
        sum inner fun deeper inside => factors deeper (Nat.le_trans inside within)) :=
    enclosed_agrees fun _ within => sum_agrees (fun _ _ => each _ _) (Nat.le_trans within enough)
  exact operand.bind fun _ => agrees_pure

end Operands

/-- A factor is read if what is inside it is. -/
theorem factor_step {token : Token} {rest : List Token} {depth : Nat}
    (smaller : ∀ inside : List Token, inside.length ≤ rest.length → ∀ more, depth ≤ more →
      Agrees (Descent.factor more) inside (factor inside)) (enough : rest.length ≤ depth) :
    Agrees (Descent.factor (depth + 4)) (token :: rest) (factor (token :: rest)) := by
  obtain ⟨kind, span⟩ := token
  rw [Descent.factor, factor]
  cases kind with
  | identifier | literal => rfl
  | symbol mark =>
      cases mark
      case openParen =>
        have inner : Agrees (Descent.expression (depth + 3)) rest
            (sum rest fun inside _ => factor inside) :=
          sum_agrees (fun inside within => smaller inside within _ (Nat.le_succ depth))
            (Nat.le_succ_of_le enough)
        refine agrees_next (inner.bind fun _ => ?_)
        exact (agrees_expect _ _ _).bind fun _ => agrees_pure
      all_goals rfl
  | keyword word =>
      have operand := castOperand_agrees
        (fun inside within => smaller inside within depth (Nat.le_refl depth)) enough
      cases word
      case castInt => exact agrees_next (operand .int).relax
      case castFloat => exact agrees_next (operand .float).relax
      all_goals rfl

/-- Expressions are read within a depth of four for each token. -/
theorem factor_agrees : ∀ (tokens : List Token) (depth : Nat), 4 * tokens.length + 1 ≤ depth →
    Agrees (Descent.factor depth) tokens (factor tokens)
  | [], depth, enough => by
      obtain ⟨depth, rfl⟩ := Nat.exists_eq_add_of_le' enough
      rw [Agrees, factor]
      rfl
  | token :: rest, depth, enough => by
      obtain ⟨depth, rfl⟩ := Nat.exists_eq_add_of_le' (Nat.le_trans (Nat.le_add_left 4 _) enough)
      rw [List.length_cons] at enough
      refine factor_step (fun inside within more above => ?_) (by omega)
      exact factor_agrees inside more (by omega)
termination_by tokens => tokens.length
decreasing_by simp only [List.length_cons]; omega

/-- Both readers read the same expressions at a depth of four steps a token. -/
theorem expression_agrees {depth : Nat} (enough : 4 * tokens.length + 3 ≤ depth) :
    Agrees (Descent.expression depth) tokens (expression tokens) := by
  obtain ⟨depth, rfl⟩ := Nat.exists_eq_add_of_le' (Nat.le_trans (Nat.le_add_left 2 _) enough)
  exact sum_agrees (fun inside within => factor_agrees inside depth (by omega)) (by omega)

/-- Both readers read the same comparisons at the depth of an expression. -/
theorem comparison_agrees {depth : Nat} (enough : 4 * tokens.length + 3 ≤ depth) :
    Agrees (Descent.comparison depth) tokens (comparison tokens) := by
  apply (expression_agrees enough).bind
  intro left
  apply (agrees_expect _ _ _).bind
  intro op
  have shorter := Nat.lt_trans op.shorter left.shorter
  apply (expression_agrees (by omega)).bind
  exact fun _ => agrees_pure

end Expressions

section Conditions
variable {tokens : List Token}

/-- Conditions are read if their factors are. -/
theorem conjunction_agrees {depth : Nat} {factors : Reader Condition tokens.length}
    (each : ∀ inside within, Agrees (Descent.conditionFactor depth) inside (factors inside within))
    (enough : tokens.length ≤ depth) :
    Agrees (Descent.conjunction (depth + 1)) tokens (conjunction tokens factors) := by
  rw [Descent.conjunction]
  exact chain_agrees each enough

/-- Both readers read the same conditions, if they read the same factors of them. -/
theorem disjunction_agrees {depth : Nat} {factors : Reader Condition tokens.length}
    (each : ∀ inside within, Agrees (Descent.conditionFactor depth) inside (factors inside within))
    (enough : tokens.length ≤ depth) :
    Agrees (Descent.disjunction (depth + 2)) tokens (disjunction tokens factors) := by
  rw [Descent.disjunction]
  refine chain_agrees (fun inside within => ?_) (Nat.le_succ_of_le enough)
  exact conjunction_agrees (fun _ _ => each _ _) (Nat.le_trans within enough)

/-- Both readers read the same factors of conditions, one step deeper than expressions. -/
theorem conditionFactor_agrees : ∀ (tokens : List Token) (depth : Nat),
    4 * tokens.length + 4 ≤ depth →
      Agrees (Descent.conditionFactor depth) tokens (conditionFactor tokens)
  | [], depth, enough => by
      obtain ⟨depth, rfl⟩ := Nat.exists_eq_add_of_le' (show 4 ≤ depth from enough)
      rw [Descent.conditionFactor, conditionFactor]
      exact agrees_skip (by simp) (comparison_agrees (Nat.le_add_left 3 depth))
  | token :: rest, depth, enough => by
      obtain ⟨depth, rfl⟩ := Nat.exists_eq_add_of_le' (Nat.le_trans (Nat.le_add_left 4 _) enough)
      rw [List.length_cons] at enough
      rw [Descent.conditionFactor, conditionFactor]
      split
      next signed =>
        refine agrees_recognise signed ?_
        have inner : Agrees (Descent.enclosed .negation (Descent.disjunction (depth + 3))) rest
            (enclosed .negation rest fun operand _ =>
              disjunction operand fun inside _ => conditionFactor inside) :=
          enclosed_agrees fun operand within => disjunction_agrees
            (fun inside deeper => conditionFactor_agrees inside (depth + 1) (by omega)) (by omega)
        exact inner.bind fun _ => agrees_pure
      next different =>
        refine agrees_skip (by simpa using different) (comparison_agrees ?_)
        rw [List.length_cons]
        omega
termination_by tokens => tokens.length
decreasing_by simp only [List.length_cons]; omega

/-- Both readers read the same conditions, three steps deeper than expressions. -/
theorem condition_agrees {depth : Nat} (enough : 4 * tokens.length + 6 ≤ depth) :
    Agrees (Descent.condition depth) tokens (condition tokens) := by
  obtain ⟨depth, rfl⟩ := Nat.exists_eq_add_of_le' (Nat.le_trans (Nat.le_add_left 2 _) enough)
  refine enclosed_agrees fun operand within =>
    disjunction_agrees (fun inside deeper => ?_) (by omega)
  exact conditionFactor_agrees inside depth (by omega)

end Conditions

section Statements
variable {rest : List Token} {span : Span} {depth : Nat}

/-- Both readers read the same assignments at the depth of an expression. -/
theorem assignment_agrees {name : String} (enough : 4 * rest.length + 3 ≤ depth) :
    Agrees (Descent.assignment depth) (⟨.identifier name, span⟩ :: rest)
      (assignment ⟨name, span⟩ rest) := by
  refine agrees_take rfl ?_
  apply (agrees_expect _ _ _).bind
  intro sign
  have shorter := sign.shorter
  apply (expression_agrees (by omega)).bind
  intro value
  exact (agrees_expect _ _ _).bind fun _ => agrees_pure

theorem input_agrees :
    Agrees Descent.input (⟨.keyword .inputWord, span⟩ :: rest) (inputArgument rest) := by
  refine agrees_take rfl ?_
  have target : Agrees (Descent.enclosed .argument (Descent.identifier .argument)) rest
      (enclosed .argument rest fun inside _ => identifier .argument inside) :=
    enclosed_agrees fun _ _ => agrees_expect _ _ _
  apply target.bind
  intro target
  exact (agrees_expect _ _ _).bind fun _ => agrees_pure

/-- Both readers read the same outputs at the depth of an expression. -/
theorem output_agrees (enough : 4 * rest.length + 3 ≤ depth) :
    Agrees (Descent.output depth) (⟨.keyword .outputWord, span⟩ :: rest) (outputArgument rest) := by
  refine agrees_take rfl ?_
  have value : Agrees (Descent.enclosed .argument (Descent.expression depth)) rest
      (enclosed .argument rest fun inside _ => expression inside) :=
    enclosed_agrees fun _ within => expression_agrees (by omega)
  apply value.bind
  intro value
  exact (agrees_expect _ _ _).bind fun _ => agrees_pure

section Blocks
variable {limit rounds : Nat} {item : Reader Statement limit} {descent : Descent Statement}
  {tokens : List Token}

/-- A block goes on with a statement where it is not closed. -/
theorem blockRest_bind {token : Token} {within : (token :: rest).length ≤ limit}
    (different : token.kind ≠ .symbol .closeBrace) :
    blockRest limit item (token :: rest) within =
      item (token :: rest) within >>= fun first =>
        blockRest limit item first.rest (Nat.le_trans (Nat.le_of_lt first.shorter) within) >>=
          fun later => pure ⟨first.value :: later.value, later.rest,
            Nat.lt_trans later.shorter first.shorter⟩ := by
  rw [blockRest, if_neg different]
  cases item (token :: rest) within with
  | error failure => rfl
  | ok first =>
      simp only [bind, Except.bind]
      cases blockRest limit item first.rest (Nat.le_trans (Nat.le_of_lt first.shorter) within) <;>
        rfl

/-- Both readers read the same rest of a block, if there are more rounds than tokens. -/
theorem items_agrees {within : tokens.length ≤ limit}
    (each : ∀ inside within, Agrees descent inside (item inside within))
    (enough : tokens.length < rounds) :
    Agrees (Descent.items descent rounds) tokens (blockRest limit item tokens within) := by
  induction rounds generalizing tokens with
  | zero => exact absurd enough (Nat.not_lt_zero _)
  | succ rounds ih =>
      rw [Descent.items]
      cases tokens with
      | nil =>
          rw [blockRest]
          exact agrees_skip (by simp) rfl
      | cons token rest =>
          by_cases closed : token.kind = .symbol .closeBrace
          · rw [blockRest, if_pos closed]
            exact agrees_recognise closed agrees_pure
          · rw [blockRest_bind closed]
            refine agrees_skip (by simpa using closed) (agrees_required ((each _ _).bind ?_))
            intro first
            have shorter := first.shorter
            exact (ih (by omega)).bind fun _ => agrees_pure

end Blocks

/-- A statement is read if the statements inside it are. -/
theorem statement_step {token : Token} (smaller : ∀ inside : List Token,
      inside.length ≤ rest.length → ∀ more, depth ≤ more →
        Agrees (Descent.statement more) inside (statement inside))
    (enough : 4 * rest.length + 3 ≤ depth) :
    Agrees (Descent.statement (depth + 4)) (token :: rest) (statement (token :: rest)) := by
  obtain ⟨kind, span⟩ := token
  rw [Descent.statement, statement]
  refine agrees_required ?_
  cases kind with
  | identifier name => exact (assignment_agrees (by omega)).relax
  | literal => rfl
  | symbol mark =>
      cases mark
      case openBrace =>
        have body : Agrees (Descent.block (depth + 3)) (⟨.symbol .openBrace, span⟩ :: rest)
            (blockRest rest.length (fun inside _ => statement inside) rest (Nat.le_refl _)) := by
          rw [Descent.block]
          refine agrees_take rfl (items_agrees (fun inside within => ?_) (by omega))
          exact smaller inside within _ (by omega)
        exact body.bind fun _ => agrees_pure
      all_goals rfl
  | keyword word =>
      cases word
      case inputWord => exact input_agrees.relax
      case outputWord => exact (output_agrees (by omega)).relax
      case ifWord =>
        refine agrees_take rfl ?_
        apply (condition_agrees (by omega)).bind
        intro test
        have afterTest := test.shorter
        apply (smaller _ (by omega) _ (by omega)).bind
        intro yes
        have afterYes := yes.shorter
        apply (agrees_expect _ _ _).bind
        intro otherwise
        have afterElse := otherwise.shorter
        apply (smaller _ (by omega) _ (by omega)).bind
        exact fun _ => agrees_pure
      case whileWord =>
        refine agrees_take rfl ?_
        apply (condition_agrees (by omega)).bind
        intro test
        have afterTest := test.shorter
        apply (smaller _ (by omega) _ (by omega)).bind
        exact fun _ => agrees_pure
      all_goals rfl

/-- Statements are read within a depth of four for each token. -/
theorem statement_agrees : ∀ (tokens : List Token) (depth : Nat), 4 * tokens.length + 3 ≤ depth →
    Agrees (Descent.statement depth) tokens (statement tokens)
  | [], depth, enough => by
      obtain ⟨depth, rfl⟩ := Nat.exists_eq_add_of_le' (show 3 ≤ depth from enough)
      rw [Descent.statement, statement]
      rfl
  | token :: rest, depth, enough => by
      obtain ⟨depth, rfl⟩ := Nat.exists_eq_add_of_le' (Nat.le_trans (Nat.le_add_left 4 _) enough)
      rw [List.length_cons] at enough
      refine statement_step (fun inside within more above => ?_) (by omega)
      exact statement_agrees inside more (by omega)
termination_by tokens => tokens.length
decreasing_by simp only [List.length_cons]; omega

/-- Both readers read the same blocks, one step deeper than expressions. -/
theorem block_agrees {tokens : List Token} (enough : 4 * tokens.length + 4 ≤ depth) :
    Agrees (Descent.block depth) tokens (block tokens) := by
  obtain ⟨depth, rfl⟩ := Nat.exists_eq_add_of_le' (Nat.le_trans (Nat.le_add_left 1 _) enough)
  rw [Descent.block]
  apply (agrees_expect _ _ _).bind
  intro opening
  have shorter := opening.shorter
  refine (items_agrees (fun inside within => ?_) (by omega)).relax
  exact statement_agrees inside depth (by omega)

end Statements

section Programs
variable {tokens rest : List Token} {depth : Nat}

/-- The names of a declaration go on after a comma. -/
theorem laterIdents_bind {limit : Nat} {token : Token} {shorter : (token :: rest).length < limit}
    (separated : token.kind = .symbol .comma) :
    laterIdents limit (token :: rest) shorter =
      identifier .declaration rest >>= fun first =>
        laterIdents limit first.rest (Nat.lt_trans first.shorter (Nat.lt_of_succ_lt shorter)) >>=
          fun later => pure ⟨first.value :: later.value, later.rest, later.shorter⟩ := by
  rw [laterIdents, if_pos separated]
  cases identifier .declaration rest with
  | error failure => rfl
  | ok first =>
      simp only [bind, Except.bind]
      have below := Nat.lt_trans first.shorter (Nat.lt_of_succ_lt shorter)
      cases laterIdents limit first.rest below <;> rfl

/-- Both readers read the same later names, if there are more rounds than tokens. -/
theorem laterIdents_agrees {limit rounds : Nat} {shorter : tokens.length < limit}
    (enough : tokens.length < rounds) :
    Agrees (Descent.laterIdents rounds) tokens (laterIdents limit tokens shorter) := by
  induction rounds generalizing tokens with
  | zero => exact absurd enough (Nat.not_lt_zero _)
  | succ rounds ih =>
      rw [Descent.laterIdents]
      cases tokens with
      | nil =>
          rw [laterIdents]
          exact agrees_skip (by simp) agrees_pure
      | cons token rest =>
          by_cases separated : token.kind = .symbol .comma
          · rw [laterIdents_bind separated]
            refine agrees_recognise separated ((agrees_expect _ _ _).bind ?_)
            intro first
            refine (ih ?_).bind fun _ => agrees_pure
            exact Nat.lt_trans first.shorter (Nat.lt_of_succ_lt_succ enough)
          · rw [laterIdents, if_neg separated]
            exact agrees_skip (by simpa using separated) agrees_pure

/-- Both readers read the same declarations, if there are as many steps as tokens. -/
theorem declaration_agrees (enough : tokens.length ≤ depth) :
    Agrees (Descent.declaration depth) tokens (declaration tokens) := by
  apply (agrees_expect _ _ _).bind
  intro first
  apply (laterIdents_agrees (Nat.lt_of_lt_of_le first.shorter enough)).bind
  intro later
  apply (agrees_expect _ _ _).bind
  intro colon
  apply (agrees_expect _ _ _).bind
  intro scalar
  exact (agrees_expect _ _ _).bind fun _ => agrees_pure

/-- Both readers read the same declarations of a program. -/
theorem declarations_agrees {rounds : Nat} (enough : tokens.length ≤ depth)
    (within : tokens.length < rounds) :
    Descent.declarations depth rounds tokens = some (declarations tokens) := by
  induction rounds generalizing tokens with
  | zero => exact absurd within (Nat.not_lt_zero _)
  | succ rounds ih =>
      rw [Descent.declarations]
      cases tokens with
      | nil =>
          rw [declarations]
          rfl
      | cons token rest =>
          rw [nextIs_bind, List.head?_cons, Option.any_some, declarations]
          by_cases opened : token.kind = .symbol .openBrace
          · rw [decide_eq_true opened, if_pos opened]
            rfl
          · rw [decide_eq_false opened, if_neg opened]
            change (Descent.declaration depth >>= _) (token :: rest) = _
            rw [bind_run, declaration_agrees enough]
            cases declaration (token :: rest) with
            | error failure => rfl
            | ok first =>
                have shorter := first.shorter
                change (Descent.declarations depth rounds >>= _) first.rest = _
                rw [bind_run, ih (by omega) (by omega)]
                dsimp only
                cases declarations first.rest <;> rfl

/-- No more tokens are left after the declarations than before them. -/
theorem declarations_length {declared : List Declaration}
    (read : declarations tokens = .ok (declared, rest)) : rest.length ≤ tokens.length := by
  fun_induction declarations tokens generalizing declared rest with
  | case1 | case3 | case4 => cases read
  | case2 =>
      cases read
      exact Nat.le_refl _
  | case5 token later different first found others body below ih =>
      cases read
      exact Nat.le_trans (ih below) (Nat.le_of_lt first.shorter)

/-- Programs are read within a depth of four for each token. -/
theorem program_agrees (enough : 4 * tokens.length + 4 ≤ depth) :
    Descent.program depth tokens = some ((program tokens).map fun read => (read, [])) := by
  rw [Descent.program, program, bind_run, declarations_agrees (by omega) (by omega)]
  cases found : declarations tokens with
  | error failure => rfl
  | ok pair =>
      obtain ⟨declared, later⟩ := pair
      have shorter := declarations_length found
      change (Descent.block depth >>= _) later = some (Except.map _ (block later >>= _))
      rw [bind_run, block_agrees (by omega)]
      cases block later with
      | error failure => rfl
      | ok body =>
          obtain ⟨body, left, _⟩ := body
          cases left <;> rfl

/-- The bounded reader always answers, and answers what the reader of programs does. -/
theorem ofTokens_agrees (enough : 4 * tokens.length + 4 ≤ depth) :
    Descent.ofTokens depth tokens = some (Program.ofTokens tokens) := by
  rw [Descent.ofTokens, program_agrees enough, Program.ofTokens]
  cases program tokens <;> rfl

end Programs

section Progress

/-- A reader leaves a proper end of its tokens, and the descent for it ends with what it answers if
there are four calls and rounds for each token and six more. -/
structure Progress {Value : Type} (descent : (depth : Nat) → Descent Value)
    (reader : (tokens : List Token) → Outcome Value tokens.length) : Prop where
  leaves : ∀ tokens value rest, Reads (reader tokens) value rest → rest <:+ tokens ∧ rest ≠ tokens
  ends : ∀ tokens depth, 4 * tokens.length + 6 ≤ depth →
    Agrees (descent depth) tokens (reader tokens)

/-- What is read exactly is read from the front. -/
theorem Exact.progress {Value : Type} {descent : (depth : Nat) → Descent Value}
    {reader : (tokens : List Token) → Outcome Value tokens.length}
    {Phrase : List Token → Value → Prop} {goesOn : Token → Bool}
    (exact : ∀ tokens, Exact Phrase goesOn tokens (reader tokens))
    (ends : ∀ tokens depth, 4 * tokens.length + 6 ≤ depth →
      Agrees (descent depth) tokens (reader tokens)) : Progress descent reader where
  leaves tokens value rest read := by
    obtain ⟨used, whole, _⟩ := (exact tokens).sound read
    obtain ⟨shorter, _⟩ := read
    refine ⟨⟨used, whole.symm⟩, ?_⟩
    rintro rfl
    exact Nat.lt_irrefl _ shorter
  ends := ends

/-- The reader of conjunctions reads terms of conditions. -/
theorem conjunction_exact (tokens : List Token) :
    Exact (ConditionPhrase .term) conditionTermGoesOn tokens
      (conjunction tokens fun inside _ => conditionFactor inside) :=
  (chain_exact (fun inside _ => conditionFactor_exact inside) and_stops).congr fun _ _ =>
    chained_conditionFactors

/-- Every procedure of the descent takes at least one token from the front, and has an answer on
all tokens within a bound in proportion to their number. So has the descent for whole programs:
the program or the error that is read. -/
theorem descent_progress :
    Progress Descent.declaration declaration ∧
      Progress Descent.block block ∧
      Progress Descent.statement statement ∧
      Progress Descent.disjunction
        (fun tokens => disjunction tokens fun inside _ => conditionFactor inside) ∧
      Progress Descent.conjunction
        (fun tokens => conjunction tokens fun inside _ => conditionFactor inside) ∧
      Progress Descent.conditionFactor conditionFactor ∧
      Progress Descent.expression expression ∧
      Progress Descent.term (fun tokens => product tokens fun inside _ => factor inside) ∧
      Progress Descent.factor factor ∧
      (∀ target, Progress (Descent.cast · target)
        (fun tokens => castOperand target tokens fun inside _ => factor inside)) ∧
      ∀ tokens depth, 4 * tokens.length + 6 ≤ depth →
        Descent.ofTokens depth tokens = some (Program.ofTokens tokens) := by
  refine ⟨Exact.progress declaration_exact ?_, Exact.progress block_exact ?_,
    Exact.progress statement_exact ?_,
    Exact.progress (fun _ => disjunction_exact fun inside _ => conditionFactor_exact inside) ?_,
    Exact.progress conjunction_exact ?_, Exact.progress conditionFactor_exact ?_,
    Exact.progress expression_exact ?_,
    Exact.progress (fun _ => product_exact fun inside _ => factor_exact inside) ?_,
    Exact.progress factor_exact ?_, fun target => Exact.progress
      (fun _ => castOperand_exact (fun inside _ => factor_exact inside) target) ?_, ?_⟩
  all_goals intro tokens depth enough
  · exact declaration_agrees (by omega)
  · exact block_agrees (by omega)
  · exact statement_agrees tokens depth (by omega)
  · obtain ⟨depth, rfl⟩ := Nat.exists_eq_add_of_le' (Nat.le_trans (Nat.le_add_left 2 _) enough)
    exact disjunction_agrees (fun inside _ => conditionFactor_agrees inside depth (by omega))
      (by omega)
  · obtain ⟨depth, rfl⟩ := Nat.exists_eq_add_of_le' (Nat.le_trans (Nat.le_add_left 1 _) enough)
    exact conjunction_agrees (fun inside _ => conditionFactor_agrees inside depth (by omega))
      (by omega)
  · exact conditionFactor_agrees tokens depth (by omega)
  · exact expression_agrees (by omega)
  · obtain ⟨depth, rfl⟩ := Nat.exists_eq_add_of_le' (Nat.le_trans (Nat.le_add_left 1 _) enough)
    exact product_agrees (fun inside _ => factor_agrees inside depth (by omega)) (by omega)
  · exact factor_agrees tokens depth (by omega)
  · obtain ⟨depth, rfl⟩ := Nat.exists_eq_add_of_le' (Nat.le_trans (Nat.le_add_left 3 _) enough)
    exact castOperand_agrees (fun inside _ => factor_agrees inside depth (by omega)) (by omega)
      target
  · exact ofTokens_agrees (by omega)

end Progress

end Grammar

end Cpl
