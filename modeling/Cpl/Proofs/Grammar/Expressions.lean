import Cpl.Proofs.Grammar.Phrase
import Cpl.Proofs.Grammar.Readers

namespace Cpl

namespace Grammar

section Expressions

/-- Products are joined by the signs of multiplication and division. -/
theorem productJoin?_some {token : Token} {combine : Expr → Expr → Expr} :
    productJoin? token = some combine ↔
      ∃ op : ArithOp, (op = .multiply ∨ op = .divide) ∧ token.kind = .symbol op.sign ∧
        combine = .binary op := by
  rw [productJoin?]
  split <;> simp_all [ArithOp.sign, eq_comm]

/-- Sums are joined by the signs of addition and subtraction. -/
theorem sumJoin?_some {token : Token} {combine : Expr → Expr → Expr} :
    sumJoin? token = some combine ↔
      ∃ op : ArithOp, (op = .add ∨ op = .subtract) ∧ token.kind = .symbol op.sign ∧
        combine = .binary op := by
  rw [sumJoin?]
  split <;> simp_all [ArithOp.sign, eq_comm]

/-- Terms are chains of factors. -/
theorem chained_factors {tokens : List Token} {value : Expr} :
    Chained productJoin? (ExprPhrase .factor) tokens value ↔ ExprPhrase .term tokens value := by
  constructor
  · intro chained
    induction chained with
    | operand phrase => exact .ofFactor phrase
    | more _ joined after before =>
        obtain ⟨op, multiplicative, signed, rfl⟩ := productJoin?_some.mp joined
        exact .product before multiplicative signed after
  · intro phrase
    generalize atTerm : ExprLevel.term = level at phrase
    induction phrase with
    | product _ multiplicative signed after before _ =>
        exact (before rfl).more (productJoin?_some.mpr ⟨_, multiplicative, signed, rfl⟩) after
    | ofFactor phrase => exact .operand phrase
    | sum | ofTerm | parenthesised | identifier | literal | cast => cases atTerm

/-- Expressions are chains of terms. -/
theorem chained_terms {tokens : List Token} {value : Expr} :
    Chained sumJoin? (ExprPhrase .term) tokens value ↔ ExprPhrase .expression tokens value := by
  constructor
  · intro chained
    induction chained with
    | operand phrase => exact .ofTerm phrase
    | more _ joined after before =>
        obtain ⟨op, additive, signed, rfl⟩ := sumJoin?_some.mp joined
        exact .sum before additive signed after
  · intro phrase
    generalize atExpression : ExprLevel.expression = level at phrase
    induction phrase with
    | sum _ additive signed after before _ =>
        exact (before rfl).more (sumJoin?_some.mpr ⟨_, additive, signed, rfl⟩) after
    | ofTerm phrase => exact .operand phrase
    | product | ofFactor | parenthesised | identifier | literal | cast => cases atExpression

/-- A term goes on at the signs of products. -/
def termGoesOn : Token → Bool := chainGoesOn productJoin? never

/-- An expression goes on at the signs of products and sums. -/
def exprGoesOn : Token → Bool := chainGoesOn sumJoin? termGoesOn

theorem product_stops : OperatorStops productJoin? never := fun _ _ _ => rfl

/-- The signs of sums end terms. -/
theorem sum_stops : OperatorStops sumJoin? termGoesOn := by
  intro token combine joined
  obtain ⟨op, additive, signed, rfl⟩ := sumJoin?_some.mp joined
  obtain rfl | rfl := additive <;>
    simp [termGoesOn, chainGoesOn, productJoin?, signed, ArithOp.sign, never]

/-- A closing parenthesis ends an expression. -/
theorem expr_parenStops : ParenStops exprGoesOn := by
  intro token closed
  simp [exprGoesOn, termGoesOn, chainGoesOn, sumJoin?, productJoin?, closed, never]

section Levels
variable {tokens : List Token} {factors : Reader Expr tokens.length}
  (each : ∀ inside within, Exact (ExprPhrase .factor) never inside (factors inside within))
include each

/-- The reader of products reads terms. -/
theorem product_exact :
    Exact (ExprPhrase .term) termGoesOn tokens (product tokens factors) :=
  (chain_exact each product_stops).congr fun _ _ => chained_factors

/-- The reader of sums reads expressions. -/
theorem sum_exact : Exact (ExprPhrase .expression) exprGoesOn tokens (sum tokens factors) :=
  (chain_exact (fun _ _ => product_exact fun _ _ => each _ _) sum_stops).congr fun _ _ =>
    chained_terms

/-- What follows the word of a cast. -/
def CastPhrase (target : Scalar) (tokens : List Token) (value : Expr) : Prop :=
  ∃ operand, Enclosed (ExprPhrase .expression) tokens operand ∧ value = .cast target operand

/-- The reader of operands reads what is converted. -/
theorem castOperand_exact (target : Scalar) :
    Exact (CastPhrase target) never tokens (castOperand target tokens factors) := by
  have inner : Exact (Enclosed (ExprPhrase .expression)) never tokens
      (enclosed .cast tokens fun inside within =>
        sum inside fun deeper below => factors deeper (Nat.le_trans below within)) :=
    enclosed_exact (fun _ _ => sum_exact fun _ _ => each _ _) expr_parenStops
  constructor
  · intro value rest read
    obtain ⟨operand, operandRead, rfl⟩ := (reads_map (Expr.cast target)).mp read
    obtain ⟨used, whole, phrase⟩ := inner.sound operandRead
    exact ⟨used, whole, operand, phrase, rfl⟩
  · intro value read rest whole phrase _
    obtain ⟨operand, phrase, rfl⟩ := phrase
    have operandRead := inner.complete whole phrase (stops_never rest)
    exact (reads_map (Expr.cast target)).mpr ⟨operand, operandRead, rfl⟩

end Levels

/-- A conversion is a factor with its word before the operand. -/
theorem CastPhrase.factor {target : Scalar} {tokens : List Token} {word : Token} {value : Expr}
    (phrase : CastPhrase target tokens value) (converted : word.kind = .keyword target.castWord) :
    ExprPhrase .factor (word :: tokens) value := by
  obtain ⟨operand, ⟨opening, inner, closing, opened, content, closed, rfl⟩, rfl⟩ := phrase
  exact .cast converted opened content closed

section Step
variable {token : Token} {later rest : List Token} {value : Expr}
  (sums : Exact (ExprPhrase .expression) exprGoesOn later (sum later fun inside _ => factor inside))
  (casts : ∀ target, Exact (CastPhrase target) never later
    (castOperand target later fun inside _ => factor inside))
include sums casts

/-- What is read as a factor is one, if that holds for the expressions inside it. -/
theorem factor_sound_step (read : Reads (factor (token :: later)) value rest) :
    ∃ used, token :: later = used ++ rest ∧ ExprPhrase .factor used value := by
  rw [factor] at read
  split at read
  next name named =>
    obtain ⟨rfl, rfl⟩ := reads_ok.mp read
    exact ⟨[token], rfl, .identifier named⟩
  next literal written =>
    obtain ⟨rfl, rfl⟩ := reads_ok.mp read
    exact ⟨[token], rfl, .literal written⟩
  next opened =>
    obtain ⟨_, _, _, sumRead, read⟩ := reads_bind read
    obtain ⟨_, _, _, closeRead, read⟩ := reads_bind read
    obtain ⟨rfl, rfl⟩ := reads_pure.mp read
    obtain ⟨closing, rfl, closed⟩ := reads_symbol.mp closeRead
    obtain ⟨used, rfl, phrase⟩ := sums.sound sumRead
    exact ⟨token :: (used ++ [closing]), by simp, .parenthesised opened phrase closed⟩
  next converted =>
    obtain ⟨_, castRead, rfl⟩ := (reads_map id).mp read
    obtain ⟨used, rfl, phrase⟩ := (casts .int).sound castRead
    exact ⟨token :: used, rfl, phrase.factor converted⟩
  next converted =>
    obtain ⟨_, castRead, rfl⟩ := (reads_map id).mp read
    obtain ⟨used, rfl, phrase⟩ := (casts .float).sound castRead
    exact ⟨token :: used, rfl, phrase.factor converted⟩
  next => exact absurd read reads_error

/-- A factor is read as such, if that holds for the expressions inside it. -/
theorem factor_complete_step {used : List Token} (whole : token :: later = used ++ rest)
    (phrase : ExprPhrase .factor used value) : Reads (factor (token :: later)) value rest := by
  cases phrase with
  | parenthesised opened content closed =>
      obtain ⟨rfl, rfl⟩ := List.cons.inj whole
      rw [factor]
      simp only [opened]
      apply (sums.complete (List.append_assoc _ _ _) content
        (stops_cons.mpr (expr_parenStops _ closed))).bind
      intro _
      apply (reads_symbol.mpr ⟨_, rfl, closed⟩).bind
      exact fun _ => reads_pure.mpr ⟨rfl, rfl⟩
  | identifier named =>
      obtain ⟨rfl, rfl⟩ := List.cons.inj whole
      rw [factor]
      simp only [named]
      exact reads_ok.mpr ⟨rfl, rfl⟩
  | literal written =>
      obtain ⟨rfl, rfl⟩ := List.cons.inj whole
      rw [factor]
      simp only [written]
      exact reads_ok.mpr ⟨rfl, rfl⟩
  | @cast _ _ _ _ target operand converted opened content closed =>
      obtain ⟨rfl, rfl⟩ := List.cons.inj whole
      have operandRead := (casts target).complete rfl
        ⟨operand, ⟨_, _, _, opened, content, closed, rfl⟩, rfl⟩ (stops_never rest)
      rw [factor]
      cases target with
      | int =>
          simp only [converted, Scalar.castWord]
          exact (reads_map id).mpr ⟨_, operandRead, rfl⟩
      | float =>
          simp only [converted, Scalar.castWord]
          exact (reads_map id).mpr ⟨_, operandRead, rfl⟩

end Step

/-- An expression starts with a token, and not with a negation. -/
theorem ExprPhrase.head {level : ExprLevel} {tokens : List Token} {value : Expr}
    (phrase : ExprPhrase level tokens value) :
    ∃ first more, tokens = first :: more ∧ first.kind ≠ .symbol .not := by
  induction phrase with
  | sum _ _ _ _ before _ | product _ _ _ _ before _ =>
      obtain ⟨first, more, rfl, different⟩ := before
      exact ⟨first, _, rfl, different⟩
  | ofTerm _ ih | ofFactor _ ih => exact ih
  | parenthesised start | identifier start | literal start | cast start =>
      exact ⟨_, _, rfl, by simp [start]⟩

/-- The reader of factors is exact, for whatever stands inside a factor has fewer tokens. -/
theorem factor_exact : ∀ tokens, Exact (ExprPhrase .factor) never tokens (factor tokens)
  | [] => by
      constructor
      · intro value rest read
        rw [factor] at read
        exact absurd read reads_error
      · intro value read rest whole phrase _
        obtain ⟨first, more, rfl, _⟩ := phrase.head
        cases whole
  | token :: later => by
      have sums : Exact (ExprPhrase .expression) exprGoesOn later
          (sum later fun inside _ => factor inside) :=
        sum_exact fun inside _ => factor_exact inside
      have casts : ∀ target, Exact (CastPhrase target) never later
          (castOperand target later fun inside _ => factor inside) :=
        castOperand_exact fun inside _ => factor_exact inside
      exact ⟨factor_sound_step sums casts, fun whole phrase _ =>
        factor_complete_step sums casts whole phrase⟩
termination_by tokens => tokens.length
decreasing_by all_goals simp only [List.length_cons]; omega

/-- The reader of expressions reads all expressions and nothing else. -/
theorem expression_exact (tokens : List Token) :
    Exact (ExprPhrase .expression) exprGoesOn tokens (expression tokens) :=
  sum_exact fun inside _ => factor_exact inside

end Expressions

section Conditions

/-- Each relation has one sign. -/
theorem relOp?_some {token : Token} {op : RelOp} :
    relOp? token = some op ↔ token.kind = .symbol op.sign := by
  rw [relOp?]
  cases op <;> split <;> simp_all [RelOp.sign]

/-- The sign of a relation ends an expression. -/
theorem relation_stops {token : Token} {op : RelOp} (signed : token.kind = .symbol op.sign) :
    exprGoesOn token = false := by
  cases op <;>
    simp [exprGoesOn, termGoesOn, chainGoesOn, sumJoin?, productJoin?, signed, RelOp.sign, never]

/-- Two expressions with a relation between them. -/
def ComparisonPhrase (tokens : List Token) (test : Condition) : Prop :=
  ∃ left right sign op first second, ExprPhrase .expression left first ∧
    sign.kind = .symbol (RelOp.sign op) ∧ ExprPhrase .expression right second ∧
    tokens = left ++ sign :: right ∧ test = .relation op first second

/-- The reader of comparisons reads all comparisons and nothing else. -/
theorem comparison_exact (tokens : List Token) :
    Exact ComparisonPhrase exprGoesOn tokens (comparison tokens) where
  sound {test rest} read := by
    obtain ⟨first, _, _, firstRead, read⟩ := reads_bind read
    obtain ⟨op, _, _, signRead, read⟩ := reads_bind read
    obtain ⟨second, _, _, secondRead, read⟩ := reads_bind read
    obtain ⟨rfl, rfl⟩ := reads_pure.mp read
    obtain ⟨sign, rfl, signed⟩ := reads_single.mp signRead
    obtain ⟨left, whole, before⟩ := (expression_exact _).sound firstRead
    obtain ⟨right, rfl, after⟩ := (expression_exact _).sound secondRead
    exact ⟨left ++ sign :: right, by simp [whole], left, right, sign, op, first, second, before,
      relOp?_some.mp signed, after, rfl, rfl⟩
  complete {test read rest} whole phrase stopped := by
    obtain ⟨left, right, sign, op, first, second, before, signed, after, rfl, rfl⟩ := phrase
    rw [List.append_assoc] at whole
    apply ((expression_exact _).complete whole before
      (stops_cons.mpr (relation_stops signed))).bind
    intro _
    apply (reads_single.mpr ⟨sign, rfl, relOp?_some.mpr signed⟩).bind
    intro _
    apply ((expression_exact _).complete rfl after stopped).bind
    exact fun _ => reads_pure.mpr ⟨rfl, rfl⟩

/-- Conjunctions are joined by one sign. -/
theorem andJoin?_some {token : Token} {combine : Condition → Condition → Condition} :
    andJoin? token = some combine ↔ token.kind = .symbol .and ∧ combine = .and := by
  rw [andJoin?]
  split <;> simp_all [eq_comm]

/-- Disjunctions are joined by one sign. -/
theorem orJoin?_some {token : Token} {combine : Condition → Condition → Condition} :
    orJoin? token = some combine ↔ token.kind = .symbol .or ∧ combine = .or := by
  rw [orJoin?]
  split <;> simp_all [eq_comm]

/-- The terms of a condition are chains of its factors. -/
theorem chained_conditionFactors {tokens : List Token} {test : Condition} :
    Chained andJoin? (ConditionPhrase .factor) tokens test ↔ ConditionPhrase .term tokens test := by
  constructor
  · intro chained
    induction chained with
    | operand phrase => exact .ofFactor phrase
    | more _ joined after before =>
        obtain ⟨signed, rfl⟩ := andJoin?_some.mp joined
        exact .and before signed after
  · intro phrase
    generalize atTerm : ConditionLevel.term = level at phrase
    induction phrase with
    | and _ signed after before _ =>
        exact (before rfl).more (andJoin?_some.mpr ⟨signed, rfl⟩) after
    | ofFactor phrase => exact .operand phrase
    | or | ofTerm | not | relation => cases atTerm

/-- Conditions are chains of their terms. -/
theorem chained_conditionTerms {tokens : List Token} {test : Condition} :
    Chained orJoin? (ConditionPhrase .term) tokens test ↔
      ConditionPhrase .expression tokens test := by
  constructor
  · intro chained
    induction chained with
    | operand phrase => exact .ofTerm phrase
    | more _ joined after before =>
        obtain ⟨signed, rfl⟩ := orJoin?_some.mp joined
        exact .or before signed after
  · intro phrase
    generalize atExpression : ConditionLevel.expression = level at phrase
    induction phrase with
    | or _ signed after before _ =>
        exact (before rfl).more (orJoin?_some.mpr ⟨signed, rfl⟩) after
    | ofTerm phrase => exact .operand phrase
    | and | ofFactor | not | relation => cases atExpression

/-- The terms of a condition go on where expressions do, and at conjunctions. -/
def conditionTermGoesOn : Token → Bool := chainGoesOn andJoin? exprGoesOn

/-- Conditions go on where their terms do, and at disjunctions. -/
def conditionGoesOn : Token → Bool := chainGoesOn orJoin? conditionTermGoesOn

/-- The sign of a conjunction ends an expression. -/
theorem and_stops : OperatorStops andJoin? exprGoesOn := by
  intro token combine joined
  simp [exprGoesOn, termGoesOn, chainGoesOn, sumJoin?, productJoin?, never,
    (andJoin?_some.mp joined).1]

/-- The sign of a disjunction ends a term of a condition. -/
theorem or_stops : OperatorStops orJoin? conditionTermGoesOn := by
  intro token combine joined
  simp [conditionTermGoesOn, exprGoesOn, termGoesOn, chainGoesOn, andJoin?, sumJoin?, productJoin?,
    never, (orJoin?_some.mp joined).1]

/-- A closing parenthesis ends a condition. -/
theorem condition_parenStops : ParenStops conditionGoesOn := by
  intro token closed
  simp [conditionGoesOn, conditionTermGoesOn, exprGoesOn, termGoesOn, chainGoesOn, orJoin?,
    andJoin?, sumJoin?, productJoin?, closed, never]

/-- The reader of disjunctions reads conditions, if the reader of their factors does. -/
theorem disjunction_exact {tokens : List Token} {factors : Reader Condition tokens.length}
    (each : ∀ inside within,
      Exact (ConditionPhrase .factor) exprGoesOn inside (factors inside within)) :
    Exact (ConditionPhrase .expression) conditionGoesOn tokens (disjunction tokens factors) := by
  have terms : ∀ inside (within : inside.length ≤ tokens.length),
      Exact (ConditionPhrase .term) conditionTermGoesOn inside
        (conjunction inside fun deeper below => factors deeper (Nat.le_trans below within)) :=
    fun _ _ => (chain_exact (fun _ _ => each _ _) and_stops).congr fun _ _ =>
      chained_conditionFactors
  exact (chain_exact terms or_stops).congr fun _ _ => chained_conditionTerms

/-- A factor of a condition is read exactly if a negation inside it is. -/
theorem conditionFactor_step {token : Token} {later : List Token}
    (negations : Exact (Enclosed (ConditionPhrase .expression)) never later
      (enclosed .negation later fun operand _ =>
        disjunction operand fun inside _ => conditionFactor inside)) :
    Exact (ConditionPhrase .factor) exprGoesOn (token :: later)
      (conditionFactor (token :: later)) where
  sound {test rest} read := by
    rw [conditionFactor] at read
    split at read
    next signed =>
      obtain ⟨_, operandRead, rfl⟩ := (reads_map Condition.not).mp read
      obtain ⟨used, rfl, opening, inner, closing, opened, content, closed, rfl⟩ :=
        negations.sound operandRead
      exact ⟨token :: opening :: (inner ++ [closing]), rfl, .not signed opened content closed⟩
    next =>
      obtain ⟨used, whole, phrase⟩ := (comparison_exact _).sound read
      obtain ⟨left, right, sign, op, first, second, before, signed, after, rfl, rfl⟩ := phrase
      exact ⟨_, whole, .relation before signed after⟩
  complete {test read rest} whole phrase stopped := by
    cases phrase with
    | not signed opened content closed =>
        obtain ⟨rfl, rfl⟩ := List.cons.inj whole
        rw [conditionFactor, if_pos signed]
        have operandRead := negations.complete rfl ⟨_, _, _, opened, content, closed, rfl⟩
          (stops_never rest)
        exact (reads_map Condition.not).mpr ⟨_, operandRead, rfl⟩
    | relation before signed after =>
        have phrase : ComparisonPhrase _ _ :=
          ⟨_, _, _, _, _, _, before, signed, after, rfl, rfl⟩
        obtain ⟨start, more, rfl, different⟩ := before.head
        obtain ⟨rfl, below⟩ := List.cons.inj whole
        rw [conditionFactor, if_neg different]
        exact (comparison_exact _).complete whole phrase stopped

/-- The reader of the factors of conditions is exact. -/
theorem conditionFactor_exact :
    ∀ tokens, Exact (ConditionPhrase .factor) exprGoesOn tokens (conditionFactor tokens)
  | [] => by
      constructor
      · intro test rest read
        rw [conditionFactor] at read
        obtain ⟨used, whole, phrase⟩ := (comparison_exact []).sound read
        obtain ⟨left, right, sign, _, _, _, _, _, _, rfl, _⟩ := phrase
        simp at whole
      · intro test read rest whole phrase _
        cases phrase <;> simp at whole
  | token :: later =>
      conditionFactor_step (enclosed_exact
        (fun _ _ => disjunction_exact fun inside _ => conditionFactor_exact inside)
        condition_parenStops)
termination_by tokens => tokens.length
decreasing_by all_goals simp only [List.length_cons]; omega

/-- The reader of conditions reads all conditions in parentheses and nothing else. -/
theorem condition_exact (tokens : List Token) :
    Exact (Enclosed (ConditionPhrase .expression)) never tokens (condition tokens) :=
  enclosed_exact (fun _ _ => disjunction_exact fun inside _ => conditionFactor_exact inside)
    condition_parenStops

end Conditions

end Grammar

end Cpl
