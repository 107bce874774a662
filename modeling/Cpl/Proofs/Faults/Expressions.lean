import Cpl.Proofs.Faults.Viability
import Cpl.Proofs.Grammar.Expressions

open Computability

namespace Cpl

namespace Grammar

section Expressions

/-- The tokens that spell an expression. -/
abbrev exprWords : Language Token := spelled (ExprPhrase .expression)

/-- The tokens that spell a factor. -/
abbrev factorWords : Language Token := spelled (ExprPhrase .factor)

/-- The words of terms are factors with signs of products between them. -/
theorem spelled_terms : spelled (ExprPhrase .term) = chainWords productJoin? factorWords := by
  rw [← spelled_chained]
  exact spelled_congr fun _ _ => chained_factors.symm

/-- The words of expressions are terms with signs of sums between them. -/
theorem spelled_expressions : exprWords = chainWords sumJoin? (spelled (ExprPhrase .term)) := by
  rw [← spelled_chained]
  exact spelled_congr fun _ _ => chained_terms.symm

/-- There are factors. -/
theorem factorWords_viable : Viable factorWords [] :=
  ⟨[⟨.identifier "", .point 0⟩], _, .identifier rfl⟩

/-- There are expressions. -/
theorem exprWords_viable : Viable exprWords [] := by
  rw [spelled_expressions, spelled_terms]
  exact linkedWords_viable (linkedWords_viable factorWords_viable)

/-- What follows the first token of a factor. -/
def factorRest : TokenKind → Language Token
  | .identifier _ => 1
  | .literal _ => 1
  | .symbol .openParen => exprWords * symbolWord .closeParen
  | .keyword .castInt => inParens exprWords
  | .keyword .castFloat => inParens exprWords
  | _ => 0

/-- What may follow the first token of a factor depends on its kind alone. -/
theorem factorWords_cons {token : Token} {kind : TokenKind} (same : token.kind = kind)
    (more : List Token) : token :: more ∈ factorWords ↔ more ∈ factorRest kind := by
  subst same
  constructor
  · rintro ⟨value, phrase⟩
    cases phrase with
    | parenthesised opened content closed =>
        rw [opened]
        exact mem_mul_only.mpr ⟨_, mem_spelled content, _, closed, rfl⟩
    | identifier named =>
        rw [named]
        rfl
    | literal written =>
        rw [written]
        rfl
    | @cast _ _ _ _ target _ converted opened content closed =>
        have inside := mem_inParens.mpr ⟨_, _, _, opened, mem_spelled content, closed, rfl⟩
        rw [converted]
        cases target <;> exact inside
  · intro member
    rw [factorRest.eq_def] at member
    split at member
    next named =>
      cases member
      exact ⟨_, .identifier named⟩
    next written =>
      cases member
      exact ⟨_, .literal written⟩
    next opened =>
      obtain ⟨inner, ⟨value, content⟩, closing, closed, rfl⟩ := mem_mul_only.mp member
      exact ⟨value, .parenthesised opened content closed⟩
    next converted =>
      obtain ⟨opening, inner, closing, opened, ⟨value, content⟩, closed, rfl⟩ := mem_inParens.mp member
      exact ⟨.cast .int value, .cast converted opened content closed⟩
    next converted =>
      obtain ⟨opening, inner, closing, opened, ⟨value, content⟩, closed, rfl⟩ := mem_inParens.mp member
      exact ⟨.cast .float value, .cast converted opened content closed⟩
    next => cases member

/-- Factors start with the tokens after which they can go on. -/
theorem factorWords_startsWith :
    StartsWith factorWords fun token => ∃ more, more ∈ factorRest token.kind := by
  rintro word ⟨value, phrase⟩
  obtain ⟨token, more, rfl, _⟩ := phrase.head
  exact ⟨token, more, rfl, more, (factorWords_cons rfl more).mp ⟨value, phrase⟩⟩

section Levels
variable {tokens : List Token} {factors : Reader Expr tokens.length}
  (each : ∀ inside within, Pinpoints factorWords never inside (factors inside within))
include each

/-- Sums pinpoint faults if their factors do. -/
theorem sum_pinpoints : Pinpoints exprWords exprGoesOn tokens (sum tokens factors) := by
  have terms (inside : List Token) (within : inside.length ≤ tokens.length) :
      Pinpoints (spelled (ExprPhrase .term)) termGoesOn inside
        (product inside fun deeper below => factors deeper (Nat.le_trans below within)) := by
    rw [spelled_terms]
    exact chain_pinpoints product_stops fun _ _ => each _ _
  rw [spelled_expressions]
  exact chain_pinpoints sum_stops terms

/-- Operands of conversions pinpoint faults if the factors in them do. -/
theorem castOperand_pinpoints (target : Scalar) :
    Pinpoints (inParens exprWords) never tokens (castOperand target tokens factors) :=
  (enclosed_pinpoints (fun _ _ => sum_pinpoints fun _ _ => each _ _) expr_parenStops
    exprWords_viable).map (Expr.cast target)

end Levels

/-- A factor pinpoints faults if all factors in it do. -/
theorem factor_pinpoints_step {token : Token} {later : List Token}
    (smaller : ∀ inside : List Token, inside.length ≤ later.length →
      Pinpoints factorWords never inside (factor inside)) :
    Pinpoints factorWords never (token :: later) (factor (token :: later)) := by
  have nonempty (empty : [] ∈ factorWords) : never token = true :=
    absurd empty factorWords_startsWith.nonempty
  rw [factor]
  split
  next name named => exact (pinpoints_one never later _).cons (factorWords_cons named) nonempty
  next value written => exact (pinpoints_one never later _).cons (factorWords_cons written) nonempty
  next opened =>
    refine Pinpoints.cons ?_ (factorWords_cons opened) nonempty
    apply (sum_pinpoints smaller).bind ((only_startsWith _).follows expr_parenStops)
      (symbolWord_viable _)
    intro inner
    exact (symbol_pinpoints .closeParen .parenthesisEnd).map fun _ => inner.value
  next converted =>
    exact ((castOperand_pinpoints smaller .int).map id).cons (factorWords_cons converted) nonempty
  next converted =>
    exact ((castOperand_pinpoints smaller .float).map id).cons (factorWords_cons converted) nonempty
  next noName noLiteral noParen noInt noFloat =>
    apply pinpoints_error
    apply stuck_start factorWords_viable factorWords_startsWith
    rintro ⟨more, member⟩
    rw [factorRest.eq_def] at member
    split at member
    next name named => exact noName name named
    next value written => exact noLiteral value written
    next opened => exact noParen opened
    next converted => exact noInt converted
    next converted => exact noFloat converted
    next => cases member

/-- The reader of factors pinpoints faults. -/
theorem factor_pinpoints : ∀ tokens, Pinpoints factorWords never tokens (factor tokens)
  | [] => by
      rw [factor]
      exact pinpoints_error factorWords_viable
  | token :: later => factor_pinpoints_step fun inside _ => factor_pinpoints inside
termination_by tokens => tokens.length
decreasing_by simp only [List.length_cons]; omega

/-- Expressions pinpoint faults. -/
theorem expression_pinpoints (tokens : List Token) :
    Pinpoints exprWords exprGoesOn tokens (expression tokens) :=
  sum_pinpoints fun inside _ => factor_pinpoints inside

end Expressions

section Conditions

/-- The tokens that spell a condition. -/
abbrev conditionWords : Language Token := spelled (ConditionPhrase .expression)

/-- The tokens that spell a factor of a condition. -/
abbrev conditionFactorWords : Language Token := spelled (ConditionPhrase .factor)

/-- The words that are a relation. -/
def relationWord : Language Token := only fun token => ∃ op : RelOp, token.kind = .symbol op.sign

/-- Two expressions with a relation between them. -/
def comparisonWords : Language Token := exprWords * (relationWord * exprWords)

/-- There are signs of relations. -/
theorem relationWord_viable : Viable relationWord [] :=
  only_viable ⟨.symbol .eq, .point 0⟩ ⟨.equal, rfl⟩

/-- There are comparisons. -/
theorem comparisonWords_viable : Viable comparisonWords [] :=
  exprWords_viable.mul (relationWord_viable.mul exprWords_viable)

/-- Comparisons pinpoint faults. -/
theorem comparison_pinpoints (tokens : List Token) :
    Pinpoints comparisonWords exprGoesOn tokens (comparison tokens) := by
  have follows : Follows (relationWord * exprWords) exprGoesOn exprGoesOn := by
    apply (only_startsWith _).mul.follows
    rintro token ⟨op, signed⟩
    exact relation_stops signed
  apply (expression_pinpoints tokens).bind follows (relationWord_viable.mul exprWords_viable)
  intro left
  apply (single_pinpoints (fun token => by simp [relOp?_some]) relationWord_viable).bind
    (follows_never _ _) exprWords_viable
  intro op
  exact (expression_pinpoints op.rest).map (Condition.relation op.value left.value)

/-- A comparison is a factor of a condition. -/
theorem mem_conditionFactorWords : ∀ word ∈ comparisonWords, word ∈ conditionFactorWords := by
  intro word member
  obtain ⟨left, ⟨first, before⟩, _, rest, rfl⟩ := Language.mem_mul.mp member
  obtain ⟨_, ⟨sign, ⟨op, signed⟩, rfl⟩, right, ⟨second, after⟩, rfl⟩ := Language.mem_mul.mp rest
  exact ⟨.relation op first second, .relation before signed after⟩

/-- A condition in parentheses follows the sign of a negation. -/
theorem conditionFactorWords_not {token : Token} (signed : token.kind = .symbol .not)
    (more : List Token) :
    token :: more ∈ conditionFactorWords ↔ more ∈ inParens conditionWords := by
  rw [mem_inParens]
  constructor
  · rintro ⟨test, phrase⟩
    generalize whole : token :: more = word at phrase
    cases phrase with
    | not _ opened content closed =>
        obtain ⟨rfl, rfl⟩ := List.cons.inj whole
        exact ⟨_, _, _, opened, ⟨_, content⟩, closed, rfl⟩
    | relation before =>
        obtain ⟨start, later, rfl, different⟩ := before.head
        obtain ⟨rfl, _⟩ := List.cons.inj whole
        exact absurd signed different
  · rintro ⟨opening, inner, closing, opened, ⟨test, content⟩, closed, rfl⟩
    exact ⟨.not test, .not signed opened content closed⟩

/-- Factors of conditions without a negation are comparisons. -/
theorem conditionFactorWords_relation {token : Token} (different : token.kind ≠ .symbol .not)
    (more : List Token) (member : token :: more ∈ conditionFactorWords) :
    token :: more ∈ comparisonWords := by
  obtain ⟨test, phrase⟩ := member
  generalize whole : token :: more = word at phrase
  cases phrase with
  | not signed =>
      obtain ⟨rfl, _⟩ := List.cons.inj whole
      exact absurd signed different
  | relation before signed after =>
      have rest : _ ∈ relationWord * exprWords :=
        cons_mem_only_mul.mpr ⟨⟨_, signed⟩, mem_spelled after⟩
      exact Language.append_mem_mul (mem_spelled before) rest

/-- No factor of a condition is empty. -/
theorem conditionFactorWords_nonempty : [] ∉ conditionFactorWords := by
  rintro ⟨test, phrase⟩
  generalize whole : ([] : List Token) = word at phrase
  cases phrase with
  | not => cases whole
  | relation => simp at whole

/-- The words of terms are factors of conditions with conjunctions between them. -/
theorem spelled_conditionTerms :
    spelled (ConditionPhrase .term) = chainWords andJoin? conditionFactorWords := by
  rw [← spelled_chained]
  exact spelled_congr fun _ _ => chained_conditionFactors.symm

/-- The words of conditions are terms with disjunctions between them. -/
theorem spelled_conditions :
    conditionWords = chainWords orJoin? (spelled (ConditionPhrase .term)) := by
  rw [← spelled_chained]
  exact spelled_congr fun _ _ => chained_conditionTerms.symm

/-- There are conditions. -/
theorem conditionWords_viable : Viable conditionWords [] := by
  rw [spelled_conditions, spelled_conditionTerms]
  exact linkedWords_viable (linkedWords_viable (comparisonWords_viable.mono mem_conditionFactorWords))

/-- Conditions pinpoint faults if their factors do. -/
theorem disjunction_pinpoints {tokens : List Token} {factors : Reader Condition tokens.length}
    (each : ∀ inside within,
      Pinpoints conditionFactorWords exprGoesOn inside (factors inside within)) :
    Pinpoints conditionWords conditionGoesOn tokens (disjunction tokens factors) := by
  have terms (inside : List Token) (within : inside.length ≤ tokens.length) :
      Pinpoints (spelled (ConditionPhrase .term)) conditionTermGoesOn inside
        (conjunction inside fun deeper below => factors deeper (Nat.le_trans below within)) := by
    rw [spelled_conditionTerms]
    exact chain_pinpoints and_stops fun _ _ => each _ _
  rw [spelled_conditions]
  exact chain_pinpoints or_stops terms

/-- The reader of the factors of conditions pinpoints faults. -/
theorem conditionFactor_pinpoints :
    ∀ tokens, Pinpoints conditionFactorWords exprGoesOn tokens (conditionFactor tokens)
  | [] => by
      have failed : comparison [] = .error ⟨.expression, none⟩ := by
        rw [comparison, expression, sum, chain, product, chain, factor]
        rfl
      rw [conditionFactor, failed]
      exact pinpoints_error (comparisonWords_viable.mono mem_conditionFactorWords)
  | token :: later => by
      have nonempty (empty : [] ∈ conditionFactorWords) : exprGoesOn token = true :=
        absurd empty conditionFactorWords_nonempty
      rw [conditionFactor]
      split
      next signed =>
        have negation : Pinpoints (inParens conditionWords) never later
            (enclosed .negation later fun operand _ =>
              disjunction operand fun inside _ => conditionFactor inside) :=
          enclosed_pinpoints
            (fun _ _ => disjunction_pinpoints fun inside _ => conditionFactor_pinpoints inside)
            condition_parenStops conditionWords_viable
        exact ((negation.map Condition.not).mono fun rest _ => stops_never rest).cons
          (conditionFactorWords_not signed) nonempty
      next different =>
        exact (comparison_pinpoints (token :: later)).ofHead mem_conditionFactorWords
          (conditionFactorWords_relation different) nonempty
termination_by tokens => tokens.length
decreasing_by all_goals simp only [List.length_cons]; omega

/-- Conditions in parentheses pinpoint faults. -/
theorem condition_pinpoints (tokens : List Token) :
    Pinpoints (inParens conditionWords) never tokens (condition tokens) :=
  enclosed_pinpoints
    (fun _ _ => disjunction_pinpoints fun inside _ => conditionFactor_pinpoints inside)
    condition_parenStops conditionWords_viable

end Conditions

end Grammar

end Cpl
