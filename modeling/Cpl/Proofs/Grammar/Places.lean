import Cpl.Program.Grammar
import Cpl.Proofs.Program.Respelling

namespace Cpl

/-- The same token in another place. -/
def Token.move (spans : Span → Span) (token : Token) : Token := ⟨token.kind, spans token.span⟩

/-- The same names in other places. -/
abbrev Respelling.moving (spans : Span → Span) : Respelling := ⟨id, spans⟩

namespace Grammar

def Failure.move (spans : Span → Span) (failure : Failure) : Failure :=
  ⟨failure.stage, failure.found.map (Token.move spans)⟩

/-- What a reader makes of some tokens, and what it makes of them in other places. -/
inductive Alike (spans : Span → Span) {Value : Type} (change : Value → Value) {limit other : Nat} :
    Outcome Value limit → Outcome Value other → Prop
  | ok {value image : Value} {rest moved : List Token} {shorter : rest.length < limit}
      {movedShorter : moved.length < other} (sameValue : image = change value)
      (sameRest : moved = rest.map (Token.move spans)) :
      Alike spans change (.ok ⟨value, rest, shorter⟩) (.ok ⟨image, moved, movedShorter⟩)
  | error {failure : Failure} :
      Alike spans change (.error failure) (.error (failure.move spans))

section Steps
variable {spans : Span → Span} {First Second : Type} {change : First → First}
  {also : Second → Second} {limit other nextLimit nextOther : Nat} {tokens : List Token}

/-- Readers that go on after others. -/
theorem Alike.bind {one : Outcome First limit} {twin : Outcome First other}
    {next : Parsed First limit → Outcome Second nextLimit}
    {image : Parsed First other → Outcome Second nextOther} (start : Alike spans change one twin)
    (later : ∀ value rest shorter movedShorter, Alike spans also (next ⟨value, rest, shorter⟩)
      (image ⟨change value, rest.map (Token.move spans), movedShorter⟩)) :
    Alike spans also (one >>= next) (twin >>= image) := by
  cases start with
  | ok sameValue sameRest =>
      subst sameValue sameRest
      exact later _ _ _ _
  | error => exact .error

/-- Single tokens are read alike in other places. -/
theorem single_alike {stage : Stage} {read image : Token → Option First}
    (same : ∀ token, image (token.move spans) = (read token).map change) (tokens : List Token) :
    Alike spans change (single stage read tokens)
      (single stage image (tokens.map (Token.move spans))) := by
  cases tokens with
  | nil => exact .error
  | cons token later =>
      change Alike spans change (single stage read (token :: later))
        (single stage image (token.move spans :: later.map (Token.move spans)))
      simp only [single, same]
      cases read token with
      | none => exact .error
      | some value => exact .ok rfl rfl

/-- A token that is told by its kind alone. -/
theorem told_alike {stage : Stage} {read : Token → Option First}
    (told : ∀ token : Token, read (token.move spans) = read token) (tokens : List Token) :
    Alike spans id (single stage read tokens)
      (single stage read (tokens.map (Token.move spans))) := by
  apply single_alike
  intro token
  rw [told, Option.map_id_apply]

/-- Symbols are read alike in other places. -/
theorem symbol_alike (mark : Symbol) (stage : Stage) (tokens : List Token) :
    Alike spans id (symbol mark stage tokens)
      (symbol mark stage (tokens.map (Token.move spans))) := by
  apply told_alike
  exact fun _ => rfl

/-- Keywords are read alike in other places. -/
theorem keyword_alike (word : Keyword) (stage : Stage) (tokens : List Token) :
    Alike spans id (keyword word stage tokens)
      (keyword word stage (tokens.map (Token.move spans))) := by
  apply told_alike
  exact fun _ => rfl

/-- A name moves with its token. -/
theorem ident?_move (token : Token) :
    ident? (token.move spans) = (ident? token).map (Ident.respell (.moving spans)) := by
  simp only [ident?, Token.move]
  split <;> rfl

/-- Names are read alike in other places. -/
theorem identifier_alike (stage : Stage) (tokens : List Token) :
    Alike spans (Ident.respell (.moving spans)) (identifier stage tokens)
      (identifier stage (tokens.map (Token.move spans))) := by
  apply single_alike
  exact ident?_move

/-- What stands in parentheses is read alike in other places. -/
theorem enclosed_alike {stage : Stage} {inner : Reader First tokens.length}
    {image : Reader First (tokens.map (Token.move spans)).length}
    (each : ∀ inside within movedWithin, Alike spans change (inner inside within)
      (image (inside.map (Token.move spans)) movedWithin)) :
    Alike spans change (enclosed stage tokens inner)
      (enclosed stage (tokens.map (Token.move spans)) image) := by
  apply (symbol_alike .openParen stage tokens).bind
  intro _ rest _ _
  apply (each rest _ _).bind
  intro value rest _ _
  exact (symbol_alike .closeParen stage rest).bind fun _ _ _ _ => .ok rfl rfl

/-- Operators are told by their kind, and what they make of their operands has its names where the
operands have them. -/
structure Joins (spans : Span → Span) (change : First → First)
    (join : Token → Option (First → First → First)) : Prop where
  move : ∀ token, join (token.move spans) = join token
  combine : ∀ token combine, join token = some combine →
    ∀ left right, combine (change left) (change right) = change (combine left right)

/-- The rest of a chain goes on with an operator, or there is none. -/
theorem chainTail_cons {join : Token → Option (First → First → First)}
    {operand : Reader First limit} {left : First} {token : Token} {rest : List Token}
    (shorter : (token :: rest).length < limit) :
    chainTail join limit operand left (token :: rest) shorter =
      (match join token with
      | none => .ok ⟨left, token :: rest, shorter⟩
      | some combine => do
          let right ← operand rest (Nat.le_of_lt (Nat.lt_of_succ_lt shorter))
          chainTail join limit operand (combine left right.value) right.rest
            (Nat.lt_trans right.shorter (Nat.lt_of_succ_lt shorter))) := by
  rw [chainTail.eq_def]
  dsimp only
  cases join token with
  | none => rfl
  | some combine =>
      dsimp only
      cases operand rest _ with
      | error failure => rfl
      | ok right => rfl

/-- The rest of a chain is read alike in other places if its operands are. -/
theorem chainTail_alike {join : Token → Option (First → First → First)}
    (joins : Joins spans change join) {operand : Reader First limit} {image : Reader First other}
    (each : ∀ inside within movedWithin, Alike spans change (operand inside within)
      (image (inside.map (Token.move spans)) movedWithin)) :
    ∀ (left : First) (tokens : List Token) (shorter : tokens.length < limit)
      (movedShorter : (tokens.map (Token.move spans)).length < other),
      Alike spans change (chainTail join limit operand left tokens shorter)
        (chainTail join other image (change left) (tokens.map (Token.move spans)) movedShorter)
  | left, [], shorter, movedShorter => by
      rw [chainTail.eq_def, chainTail.eq_def]
      exact .ok rfl rfl
  | left, token :: rest, shorter, movedShorter => by
      change Alike _ _ _ (chainTail join other image (change left)
        (token.move spans :: rest.map (Token.move spans)) movedShorter)
      rw [chainTail_cons, chainTail_cons, joins.move]
      cases found : join token with
      | none => exact .ok rfl rfl
      | some combine =>
          apply (each rest _ _).bind
          intro right later below movedBelow
          dsimp only
          rw [joins.combine token combine found]
          exact chainTail_alike joins each (combine left right) later _ _
termination_by _ tokens => tokens.length
decreasing_by exact Nat.lt_succ_of_lt below

/-- A chain is read alike in other places if its operands are. -/
theorem chain_alike {join : Token → Option (First → First → First)}
    (joins : Joins spans change join) {operand : Reader First tokens.length}
    {image : Reader First (tokens.map (Token.move spans)).length}
    (each : ∀ inside within movedWithin, Alike spans change (operand inside within)
      (image (inside.map (Token.move spans)) movedWithin)) :
    Alike spans change (chain join tokens operand)
      (chain join (tokens.map (Token.move spans)) image) := by
  apply (each tokens _ _).bind
  intro first rest _ _
  exact chainTail_alike joins each first rest _ _

end Steps

section Expressions
variable {spans : Span → Span} {tokens : List Token}

/-- The signs of sums join moved operands in the same way. -/
theorem sum_joins : Joins spans (Expr.respell (.moving spans)) sumJoin? where
  move _ := rfl
  combine token combine found := by
    unfold sumJoin? at found
    split at found <;> cases found <;> exact fun _ _ => rfl

/-- The signs of products join moved operands in the same way. -/
theorem product_joins : Joins spans (Expr.respell (.moving spans)) productJoin? where
  move _ := rfl
  combine token combine found := by
    unfold productJoin? at found
    split at found <;> cases found <;> exact fun _ _ => rfl

section Factors
variable {factor : Reader Expr tokens.length}
  {image : Reader Expr (tokens.map (Token.move spans)).length}
  (each : ∀ inside within movedWithin, Alike spans (Expr.respell (.moving spans))
    (factor inside within) (image (inside.map (Token.move spans)) movedWithin))
include each

/-- Sums are read alike in other places if their factors are. -/
theorem sum_alike : Alike spans (Expr.respell (.moving spans)) (sum tokens factor)
    (sum (tokens.map (Token.move spans)) image) :=
  chain_alike sum_joins fun _ _ _ => chain_alike product_joins fun _ _ _ => each _ _ _

/-- Operands of conversions are read alike in other places if the factors in them are. -/
theorem castOperand_alike (target : Scalar) : Alike spans (Expr.respell (.moving spans))
    (castOperand target tokens factor)
    (castOperand target (tokens.map (Token.move spans)) image) := by
  refine Alike.bind (enclosed_alike fun inside _ _ => ?_) fun _ _ _ _ => .ok rfl rfl
  apply sum_alike
  exact fun factors _ _ => each factors _ _

end Factors

/-- Factors are read alike in other places. -/
theorem factor_alike : ∀ tokens : List Token,
    Alike spans (Expr.respell (.moving spans)) (factor tokens)
      (factor (tokens.map (Token.move spans)))
  | [] => by
      change Alike _ _ (factor []) (factor [])
      rw [factor]
      exact .error
  | token :: later => by
      change Alike _ _ (factor (token :: later))
        (factor (token.move spans :: later.map (Token.move spans)))
      rw [factor, factor]
      simp only [Token.move]
      split
      · exact .ok rfl rfl
      · exact .ok rfl rfl
      · apply (sum_alike fun inside _ _ => factor_alike inside).bind
        intro value rest _ _
        apply (symbol_alike .closeParen .parenthesisEnd rest).bind
        exact fun _ _ _ _ => .ok rfl rfl
      · apply (castOperand_alike (fun inside _ _ => factor_alike inside) .int).bind
        exact fun _ _ _ _ => .ok rfl rfl
      · apply (castOperand_alike (fun inside _ _ => factor_alike inside) .float).bind
        exact fun _ _ _ _ => .ok rfl rfl
      · exact .error
termination_by tokens => tokens.length
decreasing_by all_goals simp only [List.length_cons]; omega

/-- Expressions are read alike in other places. -/
theorem expression_alike (tokens : List Token) :
    Alike spans (Expr.respell (.moving spans)) (expression tokens)
      (expression (tokens.map (Token.move spans))) :=
  sum_alike fun inside _ _ => factor_alike inside

end Expressions

section Conditions
variable {spans : Span → Span} {tokens : List Token}

/-- Comparisons are read alike in other places. -/
theorem comparison_alike (tokens : List Token) :
    Alike spans (Condition.respell (.moving spans)) (comparison tokens)
      (comparison (tokens.map (Token.move spans))) := by
  apply (expression_alike tokens).bind
  intro left rest _ _
  refine Alike.bind (told_alike (fun _ => rfl) rest) fun op rest _ _ => ?_
  apply (expression_alike rest).bind
  exact fun _ _ _ _ => .ok rfl rfl

/-- The sign of disjunctions joins moved conditions in the same way. -/
theorem or_joins : Joins spans (Condition.respell (.moving spans)) orJoin? where
  move _ := rfl
  combine token combine found := by
    unfold orJoin? at found
    split at found <;> cases found
    exact fun _ _ => rfl

/-- The sign of conjunctions joins moved conditions in the same way. -/
theorem and_joins : Joins spans (Condition.respell (.moving spans)) andJoin? where
  move _ := rfl
  combine token combine found := by
    unfold andJoin? at found
    split at found <;> cases found
    exact fun _ _ => rfl

/-- Disjunctions are read alike in other places if their factors are. -/
theorem disjunction_alike {factor : Reader Condition tokens.length}
    {image : Reader Condition (tokens.map (Token.move spans)).length}
    (each : ∀ inside within movedWithin, Alike spans (Condition.respell (.moving spans))
      (factor inside within) (image (inside.map (Token.move spans)) movedWithin)) :
    Alike spans (Condition.respell (.moving spans)) (disjunction tokens factor)
      (disjunction (tokens.map (Token.move spans)) image) :=
  chain_alike or_joins fun _ _ _ => chain_alike and_joins fun _ _ _ => each _ _ _

/-- Factors of conditions are read alike in other places. -/
theorem conditionFactor_alike : ∀ tokens : List Token,
    Alike spans (Condition.respell (.moving spans)) (conditionFactor tokens)
      (conditionFactor (tokens.map (Token.move spans)))
  | [] => by
      change Alike _ _ (conditionFactor []) (conditionFactor [])
      rw [conditionFactor]
      exact comparison_alike []
  | token :: rest => by
      change Alike _ _ (conditionFactor (token :: rest))
        (conditionFactor (token.move spans :: rest.map (Token.move spans)))
      rw [conditionFactor, conditionFactor]
      by_cases negated : token.kind = .symbol .not
      · rw [if_pos negated, if_pos (show (token.move spans).kind = _ from negated)]
        refine Alike.bind (enclosed_alike fun inside _ _ => ?_) fun _ _ _ _ => .ok rfl rfl
        apply disjunction_alike
        exact fun factors _ _ => conditionFactor_alike factors
      · rw [if_neg negated, if_neg (show (token.move spans).kind ≠ _ from negated)]
        exact comparison_alike (token :: rest)
termination_by tokens => tokens.length
decreasing_by simp only [List.length_cons]; omega

/-- Conditions are read alike in other places. -/
theorem condition_alike (tokens : List Token) :
    Alike spans (Condition.respell (.moving spans)) (condition tokens)
      (condition (tokens.map (Token.move spans))) :=
  enclosed_alike fun _ _ _ => disjunction_alike fun inside _ _ => conditionFactor_alike inside

end Conditions

section Statements
variable {spans : Span → Span}

/-- Assignments are read alike in other places, and their targets move with them. -/
theorem assignment_alike (target : Ident) (tokens : List Token) :
    Alike spans (Statement.respell (.moving spans)) (assignment target tokens)
      (assignment (target.respell (.moving spans)) (tokens.map (Token.move spans))) := by
  apply (symbol_alike .assign .assignment tokens).bind
  intro _ rest _ _
  apply (expression_alike rest).bind
  intro value rest _ _
  apply (symbol_alike .semicolon .statementEnd rest).bind
  exact fun _ _ _ _ => .ok rfl rfl

theorem inputArgument_alike (tokens : List Token) :
    Alike spans (Statement.respell (.moving spans)) (inputArgument tokens)
      (inputArgument (tokens.map (Token.move spans))) := by
  refine Alike.bind (enclosed_alike fun inside _ _ => identifier_alike .argument inside) ?_
  intro target rest _ _
  apply (symbol_alike .semicolon .statementEnd rest).bind
  exact fun _ _ _ _ => .ok rfl rfl

theorem outputArgument_alike (tokens : List Token) :
    Alike spans (Statement.respell (.moving spans)) (outputArgument tokens)
      (outputArgument (tokens.map (Token.move spans))) := by
  refine Alike.bind (enclosed_alike fun inside _ _ => expression_alike inside) ?_
  intro value rest _ _
  apply (symbol_alike .semicolon .statementEnd rest).bind
  exact fun _ _ _ _ => .ok rfl rfl

/-- A block goes on with its closing brace or with a statement. -/
theorem blockRest_cons {limit : Nat} {item : Reader Statement limit} {token : Token}
    {rest : List Token} (within : (token :: rest).length ≤ limit) :
    blockRest limit item (token :: rest) within =
      (if token.kind = .symbol .closeBrace then .ok ⟨[], rest, Nat.lt_add_one _⟩
      else do
        let first ← item (token :: rest) within
        let later ← blockRest limit item first.rest
          (Nat.le_trans (Nat.le_of_lt first.shorter) within)
        return ⟨first.value :: later.value, later.rest,
          Nat.lt_trans later.shorter first.shorter⟩) := by
  rw [blockRest.eq_def]
  dsimp only
  split
  · rfl
  · cases item (token :: rest) within with
    | error failure => rfl
    | ok first =>
        change _ = (blockRest limit item first.rest _ >>= _)
        dsimp only
        cases blockRest limit item first.rest _ with
        | error failure => rfl
        | ok later => rfl

/-- The rest of a block is read alike in other places if the statements in it are. -/
theorem blockRest_alike {limit other : Nat} {item : Reader Statement limit}
    {image : Reader Statement other}
    (each : ∀ inside within movedWithin, Alike spans (Statement.respell (.moving spans))
      (item inside within) (image (inside.map (Token.move spans)) movedWithin)) :
    ∀ (tokens : List Token) (within : tokens.length ≤ limit)
      (movedWithin : (tokens.map (Token.move spans)).length ≤ other),
      Alike spans (Statement.respellAll (.moving spans)) (blockRest limit item tokens within)
        (blockRest other image (tokens.map (Token.move spans)) movedWithin)
  | [], within, movedWithin => by
      rw [blockRest.eq_def, blockRest.eq_def]
      exact .error
  | token :: rest, within, movedWithin => by
      change Alike _ _ _ (blockRest other image
        (token.move spans :: rest.map (Token.move spans)) movedWithin)
      rw [blockRest_cons, blockRest_cons]
      by_cases closes : token.kind = .symbol .closeBrace
      · rw [if_pos closes, if_pos (show (token.move spans).kind = _ from closes)]
        exact .ok rfl rfl
      · rw [if_neg closes, if_neg (show (token.move spans).kind ≠ _ from closes)]
        apply (each (token :: rest) _ _).bind
        intro first later below movedBelow
        apply (blockRest_alike each later _ _).bind
        exact fun _ _ _ _ => .ok rfl rfl
termination_by tokens => tokens.length
decreasing_by exact below

/-- Statements are read alike in other places. -/
theorem statement_alike : ∀ tokens : List Token,
    Alike spans (Statement.respell (.moving spans)) (statement tokens)
      (statement (tokens.map (Token.move spans)))
  | [] => by
      change Alike _ _ (statement []) (statement [])
      rw [statement]
      exact .error
  | token :: later => by
      change Alike _ _ (statement (token :: later))
        (statement (token.move spans :: later.map (Token.move spans)))
      rw [statement, statement]
      simp only [Token.move]
      split
      · rename_i name _
        apply (assignment_alike ⟨name, token.span⟩ later).bind
        exact fun _ _ _ _ => .ok rfl rfl
      · apply (inputArgument_alike later).bind
        exact fun _ _ _ _ => .ok rfl rfl
      · apply (outputArgument_alike later).bind
        exact fun _ _ _ _ => .ok rfl rfl
      · apply (condition_alike later).bind
        intro test afterTest belowTest _
        apply (statement_alike afterTest).bind
        intro yes afterYes belowYes _
        apply (keyword_alike .elseWord .elseBranch afterYes).bind
        intro _ afterElse belowElse _
        apply (statement_alike afterElse).bind
        exact fun _ _ _ _ => .ok rfl rfl
      · apply (condition_alike later).bind
        intro test afterTest belowTest _
        apply (statement_alike afterTest).bind
        exact fun _ _ _ _ => .ok rfl rfl
      · apply (blockRest_alike (fun inside _ _ => statement_alike inside) later _ _).bind
        exact fun _ _ _ _ => .ok rfl rfl
      · exact .error
termination_by tokens => tokens.length
decreasing_by all_goals simp only [List.length_cons]; omega

/-- Blocks are read alike in other places. -/
theorem block_alike (tokens : List Token) :
    Alike spans (Statement.respellAll (.moving spans)) (block tokens)
      (block (tokens.map (Token.move spans))) := by
  apply (symbol_alike .openBrace .block tokens).bind
  intro _ rest _ _
  apply (blockRest_alike (fun inside _ _ => statement_alike inside) rest _ _).bind
  exact fun _ _ _ _ => .ok rfl rfl

end Statements

section Programs
variable {spans : Span → Span}

/-- The names of a declaration go on after a comma only. -/
theorem laterIdents_cons {limit : Nat} {token : Token} {rest : List Token}
    (shorter : (token :: rest).length < limit) :
    laterIdents limit (token :: rest) shorter =
      (if token.kind = .symbol .comma then do
        let first ← identifier .declaration rest
        let later ← laterIdents limit first.rest
          (Nat.lt_trans first.shorter (Nat.lt_of_succ_lt shorter))
        return ⟨first.value :: later.value, later.rest, later.shorter⟩
      else .ok ⟨[], token :: rest, shorter⟩) := by
  rw [laterIdents.eq_def]
  dsimp only
  split
  · cases identifier .declaration rest with
    | error failure => rfl
    | ok first =>
        change _ = (laterIdents limit first.rest _ >>= _)
        dsimp only
        cases laterIdents limit first.rest _ with
        | error failure => rfl
        | ok later => rfl
  · rfl

/-- Later names of a declaration are read alike in other places. -/
theorem laterIdents_alike {limit other : Nat} :
    ∀ (tokens : List Token) (shorter : tokens.length < limit)
      (movedShorter : (tokens.map (Token.move spans)).length < other),
      Alike spans (List.map (Ident.respell (.moving spans))) (laterIdents limit tokens shorter)
        (laterIdents other (tokens.map (Token.move spans)) movedShorter)
  | [], shorter, movedShorter => by
      rw [laterIdents.eq_def, laterIdents.eq_def]
      exact .ok rfl rfl
  | token :: rest, shorter, movedShorter => by
      change Alike _ _ _ (laterIdents other
        (token.move spans :: rest.map (Token.move spans)) movedShorter)
      rw [laterIdents_cons, laterIdents_cons]
      by_cases comma : token.kind = .symbol .comma
      · rw [if_pos comma, if_pos (show (token.move spans).kind = _ from comma)]
        apply (identifier_alike .declaration rest).bind
        intro first later below movedBelow
        apply (laterIdents_alike later _ _).bind
        exact fun _ _ _ _ => .ok rfl rfl
      · rw [if_neg comma, if_neg (show (token.move spans).kind ≠ _ from comma)]
        exact .ok rfl rfl
termination_by tokens => tokens.length
decreasing_by exact Nat.lt_succ_of_lt below

/-- Declarations are read alike in other places. -/
theorem declaration_alike (tokens : List Token) :
    Alike spans (Declaration.respell (.moving spans)) (declaration tokens)
      (declaration (tokens.map (Token.move spans))) := by
  apply (identifier_alike .declaration tokens).bind
  intro first rest _ _
  apply (laterIdents_alike rest _ _).bind
  intro later rest _ _
  apply (symbol_alike .colon .declaration rest).bind
  intro _ rest _ _
  refine Alike.bind (told_alike (fun _ => rfl) rest) fun scalar rest _ _ => ?_
  apply (symbol_alike .semicolon .statementEnd rest).bind
  exact fun _ _ _ _ => .ok rfl rfl

/-- All declarations of a program are read alike in other places. -/
theorem declarations_move : ∀ tokens : List Token,
    declarations (tokens.map (Token.move spans)) =
      ((declarations tokens).map fun parsed =>
        (parsed.1.map (Declaration.respell (.moving spans)),
          parsed.2.map (Token.move spans))).mapError (Failure.move spans)
  | [] => by
      change declarations [] = _
      rw [declarations]
      rfl
  | token :: rest => by
      change declarations (token.move spans :: rest.map (Token.move spans)) = _
      rw [declarations, declarations]
      by_cases opens : token.kind = .symbol .openBrace
      · rw [if_pos opens, if_pos (show (token.move spans).kind = _ from opens)]
        rfl
      · rw [if_neg opens, if_neg (show (token.move spans).kind ≠ _ from opens)]
        have read : Alike spans (Declaration.respell (.moving spans)) (declaration (token :: rest))
          (declaration (token.move spans :: rest.map (Token.move spans))) :=
          declaration_alike (token :: rest)
        revert read
        generalize declaration (token :: rest) = one
        generalize declaration (token.move spans :: rest.map (Token.move spans)) = twin
        intro read
        cases read with
        | error => rfl
        | @ok first _ later _ below _ sameValue sameRest =>
            subst sameValue sameRest
            dsimp only
            rw [declarations_move later]
            cases declarations later with
            | error failure => rfl
            | ok parsed => rfl
termination_by tokens => tokens.length
decreasing_by exact below

/-- The same tokens in other places give the same program, with its names in these places, or fail
at the same stage and at the same token. -/
theorem program_move (tokens : List Token) :
    program (tokens.map (Token.move spans)) =
      ((program tokens).map (Program.respell (.moving spans))).mapError (Failure.move spans) := by
  unfold program
  rw [declarations_move]
  cases declarations tokens with
  | error failure => rfl
  | ok parsed =>
      change (block (parsed.2.map (Token.move spans)) >>= _) =
        ((block parsed.2 >>= _).map _).mapError _
      have read : Alike spans _ (block parsed.2) (block (parsed.2.map (Token.move spans))) :=
        block_alike parsed.2
      revert read
      generalize block (parsed.2.map (Token.move spans)) = twin
      generalize block parsed.2 = one
      intro read
      cases read with
      | error => rfl
      | @ok body _ rest _ _ _ sameValue sameRest =>
          subst sameValue sameRest
          cases rest with
          | nil => rfl
          | cons token later => rfl

end Programs

end Grammar

end Cpl
