import Cpl.Proofs.Program.Reading

namespace Cpl

/-- A text is cut into tokens of the same kinds each time. -/
theorem CutAs.unique {kinds others : List TokenKind} {text : List Char}
    (first : CutAs kinds text []) (second : CutAs others text []) : kinds = others := by
  obtain ⟨found, rfl, cut⟩ := first 0
  obtain ⟨twins, rfl, cutTwins⟩ := second 0
  have same : found.map Lexeme.token = twins.map Lexeme.token :=
    List.append_cancel_right (cut.symm.trans cutTwins)
  rw [(List.map_inj_right fun _ _ => Lexeme.token.inj).mp same]

section Signs

/-- Arithmetic operators differ in their signs. -/
theorem ArithOp.sign_injective {op other : ArithOp} (same : op.sign = other.sign) : op = other := by
  cases op <;> cases other <;> simp_all [sign]

/-- Relations differ in their signs. -/
theorem RelOp.sign_injective {op other : RelOp} (same : op.sign = other.sign) : op = other := by
  cases op <;> cases other <;> simp_all [sign]

/-- Types differ in their cast words. -/
theorem Scalar.castWord_injective {scalar other : Scalar}
    (same : scalar.castWord = other.castWord) : scalar = other := by
  cases scalar <;> cases other <;> simp_all [castWord]

/-- No relation has the sign of an arithmetic operator. -/
theorem RelOp.sign_ne (op : RelOp) (other : ArithOp) : op.sign ≠ other.sign := by
  cases op <;> cases other <;> decide

end Signs

section Trees
variable {kinds others rest more : List TokenKind}

/-- Wherever the tokens of two trees start something that is the same, the trees agree, and the same
follows them. -/
def Delimits (kinds others : List TokenKind) (agree : Prop) : Prop :=
  ∀ ⦃rest more : List TokenKind⦄, kinds ++ rest = others ++ more → agree ∧ rest = more

/-- Two parts with a sign between them, in parentheses, are delimited if the parts are. -/
theorem delimits_operation {left right otherLeft otherRight : List TokenKind} {sign other : Symbol}
    {first second : Prop} (before : Delimits left otherLeft first)
    (after : Delimits right otherRight second) :
    Delimits (.symbol .openParen :: (left ++ .symbol sign :: (right ++ [.symbol .closeParen])))
      (.symbol .openParen ::
        (otherLeft ++ .symbol other :: (otherRight ++ [.symbol .closeParen])))
      (first ∧ sign = other ∧ second) := by
  intro rest more same
  simp only [List.cons_append, List.append_assoc, List.cons.injEq, true_and] at same
  obtain ⟨leftAgree, same⟩ := before same
  obtain ⟨signs, same⟩ := List.cons.inj same
  obtain ⟨rightAgree, same⟩ := after same
  exact ⟨⟨leftAgree, TokenKind.symbol.inj signs, rightAgree⟩, (List.cons.inj same).2⟩

/-- A part in parentheses. -/
theorem delimits_enclosed {first : Prop} (inside : Delimits kinds others first) :
    Delimits (.symbol .openParen :: (kinds ++ [.symbol .closeParen]))
      (.symbol .openParen :: (others ++ [.symbol .closeParen])) first := by
  intro rest more same
  simp only [List.cons_append, List.append_assoc, List.cons.injEq, true_and] at same
  obtain ⟨agree, same⟩ := inside same
  exact ⟨agree, (List.cons.inj same).2⟩

/-- The tokens of an expression say what it is and where it ends. -/
theorem Expr.delimits (value other : Expr) :
    Delimits value.kinds other.kinds (value.respell .placeless = other.respell .placeless) := by
  induction value generalizing other with
  | literal constant =>
      intro rest more same
      cases other with
      | literal twin =>
          cases same
          exact ⟨rfl, rfl⟩
      | identifier _ | binary _ _ _ | cast _ _ => cases same
  | identifier ident =>
      intro rest more same
      cases other with
      | identifier twin =>
          obtain ⟨named, same⟩ := List.cons.inj same
          refine ⟨?_, same⟩
          rw [respell, respell, Ident.respell, Ident.respell, TokenKind.identifier.inj named]
          rfl
      | literal _ | binary _ _ _ | cast _ _ => cases same
  | binary op left right ihLeft ihRight =>
      intro rest more same
      cases other with
      | binary twin first second =>
          obtain ⟨⟨leftSame, signs, rightSame⟩, same⟩ :=
            delimits_operation (ihLeft first) (ihRight second) same
          rw [respell, respell, leftSame, rightSame, ArithOp.sign_injective signs]
          exact ⟨rfl, same⟩
      | literal _ | identifier _ | cast _ _ => cases same
  | cast target operand ih =>
      intro rest more same
      cases other with
      | cast twin inner =>
          obtain ⟨words, same⟩ := List.cons.inj same
          obtain ⟨operandSame, same⟩ := delimits_enclosed (ih inner) same
          have targets := Scalar.castWord_injective (TokenKind.keyword.inj words)
          rw [respell, respell, operandSame, targets]
          exact ⟨rfl, same⟩
      | literal _ | identifier _ | binary _ _ _ => cases same

/-- What starts differently inside parentheses is different. -/
theorem opened_ne {behind before : List TokenKind}
    (apart : ∀ rest more : List TokenKind, kinds ++ rest ≠ others ++ more) :
    (.symbol .openParen :: (kinds ++ behind)) ++ rest ≠
      (.symbol .openParen :: (others ++ before)) ++ more := by
  intro same
  simp only [List.cons_append, List.append_assoc, List.cons.injEq, true_and] at same
  exact apart _ _ same

/-- No condition is shown like the start of an expression. Both may start with parentheses, but
inside them there is a relation sooner or later. -/
theorem Condition.kinds_ne (test : Condition) (value : Expr) :
    test.kinds ++ rest ≠ value.kinds ++ more := by
  induction test generalizing value rest more with
  | or left right ihLeft ihRight | and left right ihLeft ihRight =>
      intro same
      cases value with
      | binary op first second =>
          exact opened_ne (fun _ _ => ihLeft first) same
      | literal _ | identifier _ | cast _ _ => cases same
  | not operand ih =>
      intro same
      cases value <;> cases same
  | relation op left right =>
      intro same
      cases value with
      | binary sign first second =>
          obtain ⟨⟨_, signs, _⟩, _⟩ :=
            delimits_operation (left.delimits first) (right.delimits second) same
          exact op.sign_ne sign signs
      | literal _ | identifier _ | cast _ _ => cases same

/-- The tokens of a condition say what it is and where it ends. -/
theorem Condition.delimits (test other : Condition) :
    Delimits test.kinds other.kinds (test.respell .placeless = other.respell .placeless) := by
  induction test generalizing other with
  | or left right ihLeft ihRight | and left right ihLeft ihRight =>
      intro rest more same
      cases other with
      | or first second | and first second =>
          obtain ⟨⟨leftSame, signs, rightSame⟩, same⟩ :=
            delimits_operation (ihLeft first) (ihRight second) same
          refine ⟨?_, same⟩
          cases signs <;> rw [respell, respell, leftSame, rightSame]
      | not _ => cases same
      | relation _ first _ => exact absurd same (opened_ne fun _ _ => left.kinds_ne first)
  | not operand ih =>
      intro rest more same
      cases other with
      | not inner =>
          obtain ⟨operandSame, same⟩ := delimits_enclosed (ih inner) (List.cons.inj same).2
          rw [respell, respell, operandSame]
          exact ⟨rfl, same⟩
      | or _ _ | and _ _ | relation _ _ _ => cases same
  | relation op left right =>
      intro rest more same
      cases other with
      | relation twin first second =>
          obtain ⟨⟨leftSame, signs, rightSame⟩, same⟩ :=
            delimits_operation (left.delimits first) (right.delimits second) same
          rw [respell, respell, leftSame, rightSame, RelOp.sign_injective signs]
          exact ⟨rfl, same⟩
      | or first _ | and first _ =>
          exact absurd same.symm (opened_ne fun _ _ => first.kinds_ne left)
      | not _ => cases same

/-- The condition of a branch or a loop, with what follows its parentheses. -/
theorem Condition.delimits_head {test other : Condition} {kinds others : List TokenKind}
    {agree : Prop} (inside : Delimits kinds others agree) :
    Delimits (.symbol .openParen :: (test.kinds ++ .symbol .closeParen :: kinds))
      (.symbol .openParen :: (other.kinds ++ .symbol .closeParen :: others))
      (test.respell .placeless = other.respell .placeless ∧ agree) := by
  intro rest more same
  simp only [List.cons_append, List.append_assoc, List.cons.injEq, true_and] at same
  obtain ⟨testSame, same⟩ := test.delimits other same
  obtain ⟨agree, same⟩ := inside (List.cons.inj same).2
  exact ⟨⟨testSame, agree⟩, same⟩

/-- No statement starts with the brace that ends a block. -/
theorem Statement.kinds_ne_closing (statement : Statement) :
    statement.kinds ++ rest ≠ .symbol .closeBrace :: more := by
  intro same
  cases statement <;> cases same

mutual

/-- The tokens of a statement say what it is and where it ends. -/
theorem Statement.delimits : ∀ (statement other : Statement),
    Delimits statement.kinds other.kinds
      (statement.respell .placeless = other.respell .placeless)
  | .assign target value, other => by
      intro rest more same
      cases other with
      | assign twin result =>
          simp only [kinds, List.cons_append, List.append_assoc, List.cons.injEq, true_and,
            TokenKind.identifier.injEq] at same
          obtain ⟨valueSame, ended⟩ := value.delimits result same.2
          refine ⟨?_, (List.cons.inj ended).2⟩
          rw [respell, respell, Ident.respell, Ident.respell, same.1, valueSame]
          rfl
      | input _ | output _ | branch _ _ _ | loop _ _ | block _ => cases same
  | .input target, other => by
      intro rest more same
      cases other with
      | input twin =>
          simp only [kinds, List.cons_append, List.nil_append, List.cons.injEq, true_and,
            TokenKind.identifier.injEq] at same
          refine ⟨?_, same.2⟩
          rw [respell, respell, Ident.respell, Ident.respell, same.1]
          rfl
      | assign _ _ | output _ | branch _ _ _ | loop _ _ | block _ => cases same
  | .output value, other => by
      intro rest more same
      cases other with
      | output result =>
          simp only [kinds, List.cons_append, List.append_assoc, List.nil_append, List.cons.injEq,
            true_and] at same
          obtain ⟨valueSame, same⟩ := value.delimits result same
          rw [respell, respell, valueSame]
          exact ⟨rfl, by simpa using same⟩
      | assign _ _ | input _ | branch _ _ _ | loop _ _ | block _ => cases same
  | .branch test yes no, other => by
      intro rest more same
      cases other with
      | branch twin first second =>
          have sides : Delimits (yes.kinds ++ .keyword .elseWord :: no.kinds)
              (first.kinds ++ .keyword .elseWord :: second.kinds)
              (yes.respell .placeless = first.respell .placeless ∧
                no.respell .placeless = second.respell .placeless) := by
            intro rest more same
            rw [List.append_assoc, List.append_assoc] at same
            obtain ⟨yesSame, same⟩ := Statement.delimits yes first same
            obtain ⟨noSame, same⟩ := Statement.delimits no second (List.cons.inj same).2
            exact ⟨⟨yesSame, noSame⟩, same⟩
          obtain ⟨⟨testSame, yesSame, noSame⟩, same⟩ :=
            Condition.delimits_head sides (List.cons.inj same).2
          rw [respell, respell, testSame, yesSame, noSame]
          exact ⟨rfl, same⟩
      | assign _ _ | input _ | output _ | loop _ _ | block _ => cases same
  | .loop test body, other => by
      intro rest more same
      cases other with
      | loop twin inner =>
          obtain ⟨⟨testSame, bodySame⟩, same⟩ :=
            Condition.delimits_head (Statement.delimits body inner) (List.cons.inj same).2
          rw [respell, respell, testSame, bodySame]
          exact ⟨rfl, same⟩
      | assign _ _ | input _ | output _ | branch _ _ _ | block _ => cases same
  | .block body, other => by
      intro rest more same
      cases other with
      | block twins =>
          simp only [kinds, List.cons_append, List.append_assoc, List.nil_append, List.cons.injEq,
            true_and] at same
          obtain ⟨bodySame, same⟩ := Statement.delimits_closed body twins same
          rw [respell, respell, bodySame]
          exact ⟨rfl, same⟩
      | assign _ _ | input _ | output _ | branch _ _ _ | loop _ _ => cases same

/-- The statements of a block end at its brace, since no statement starts with one. -/
theorem Statement.delimits_closed : ∀ (body others : List Statement) {rest more : List TokenKind},
    Statement.kindsOf body ++ .symbol .closeBrace :: rest =
        Statement.kindsOf others ++ .symbol .closeBrace :: more →
      Statement.respellAll .placeless body = Statement.respellAll .placeless others ∧ rest = more
  | [], [], _, _, same => ⟨rfl, (List.cons.inj same).2⟩
  | [], first :: later, _, _, same => by
      rw [Statement.kindsOf, Statement.kindsOf, List.append_assoc] at same
      exact absurd same.symm first.kinds_ne_closing
  | first :: later, [], _, _, same => by
      rw [Statement.kindsOf, Statement.kindsOf, List.append_assoc] at same
      exact absurd same first.kinds_ne_closing
  | first :: later, twin :: others, _, _, same => by
      rw [Statement.kindsOf, Statement.kindsOf, List.append_assoc, List.append_assoc] at same
      obtain ⟨firstSame, same⟩ := Statement.delimits first twin same
      obtain ⟨laterSame, same⟩ := Statement.delimits_closed later others same
      rw [Statement.respellAll, Statement.respellAll, firstSame, laterSame]
      exact ⟨rfl, same⟩

end

end Trees

/-- The body of a program that was read is shown as its tokens. -/
theorem bodyText_cutAs {source : String} {found : List Token} {program : Program}
    (cut : tokens source = .ok found) (read : Program.ofTokens found = .ok program) :
    CutAs (Statement.block program.body).kinds program.bodyText.toList [] := by
  have worded := program_worded cut read
  have names := (List.forall_mem_append.mp worded.names).2
  exact Statement.cutAs (.block program.body) ⟨names, worded.constants⟩ []

/-- Programs that were read and whose bodies are shown alike have the same body, but for the places
of the names in it. -/
theorem bodyText_unambiguous {source other : String} {found others : List Token}
    {program twin : Program} (cut : tokens source = .ok found)
    (read : Program.ofTokens found = .ok program) (cutTwin : tokens other = .ok others)
    (readTwin : Program.ofTokens others = .ok twin) (same : program.bodyText = twin.bodyText) :
    Statement.respellAll .placeless program.body = Statement.respellAll .placeless twin.body := by
  have first := bodyText_cutAs cut read
  have second := bodyText_cutAs cutTwin readTwin
  rw [same] at first
  have kinds := congrArg (· ++ []) (first.unique second)
  obtain ⟨blocks, _⟩ := Statement.delimits (.block program.body) (.block twin.body) kinds
  rw [Statement.respell, Statement.respell] at blocks
  exact Statement.block.inj blocks

/-- The same loop twice, once with more parentheses, blanks and zeros, and without declarations. -/
theorem loop_unambiguous :
    let source := "x:int;\x7bwhile(!(x<1||x==2))x=x+1;\x7d"
    let other := "\x7b while (!(x < 01 || (x) == 2)) x = (x + 1); \x7d"
    ∃ found program others twin, tokens source = .ok found ∧ Program.ofTokens found = .ok program ∧
      tokens other = .ok others ∧ Program.ofTokens others = .ok twin ∧
      program.bodyText = "\x7b while (!(((x < 1) || (x == 2)))) x = (x + 1); \x7d" ∧
      program.bodyText = twin.bodyText ∧
      Statement.respellAll .placeless program.body =
        Statement.respellAll .placeless twin.body := by
  intro source other
  let found : List Token := [⟨.identifier "x", ⟨0, 1⟩⟩, ⟨.symbol .colon, ⟨1, 2⟩⟩,
    ⟨.keyword .intWord, ⟨2, 5⟩⟩, ⟨.symbol .semicolon, ⟨5, 6⟩⟩, ⟨.symbol .openBrace, ⟨6, 7⟩⟩,
    ⟨.keyword .whileWord, ⟨7, 12⟩⟩, ⟨.symbol .openParen, ⟨12, 13⟩⟩, ⟨.symbol .not, ⟨13, 14⟩⟩,
    ⟨.symbol .openParen, ⟨14, 15⟩⟩, ⟨.identifier "x", ⟨15, 16⟩⟩, ⟨.symbol .lt, ⟨16, 17⟩⟩,
    ⟨.literal (.integer 1), ⟨17, 18⟩⟩, ⟨.symbol .or, ⟨18, 20⟩⟩, ⟨.identifier "x", ⟨20, 21⟩⟩,
    ⟨.symbol .eq, ⟨21, 23⟩⟩, ⟨.literal (.integer 2), ⟨23, 24⟩⟩, ⟨.symbol .closeParen, ⟨24, 25⟩⟩,
    ⟨.symbol .closeParen, ⟨25, 26⟩⟩, ⟨.identifier "x", ⟨26, 27⟩⟩, ⟨.symbol .assign, ⟨27, 28⟩⟩,
    ⟨.identifier "x", ⟨28, 29⟩⟩, ⟨.symbol .plus, ⟨29, 30⟩⟩, ⟨.literal (.integer 1), ⟨30, 31⟩⟩,
    ⟨.symbol .semicolon, ⟨31, 32⟩⟩, ⟨.symbol .closeBrace, ⟨32, 33⟩⟩]
  let others : List Token := [⟨.symbol .openBrace, ⟨0, 1⟩⟩, ⟨.keyword .whileWord, ⟨2, 7⟩⟩,
    ⟨.symbol .openParen, ⟨8, 9⟩⟩, ⟨.symbol .not, ⟨9, 10⟩⟩, ⟨.symbol .openParen, ⟨10, 11⟩⟩,
    ⟨.identifier "x", ⟨11, 12⟩⟩, ⟨.symbol .lt, ⟨13, 14⟩⟩, ⟨.literal (.integer 1), ⟨15, 17⟩⟩,
    ⟨.symbol .or, ⟨18, 20⟩⟩, ⟨.symbol .openParen, ⟨21, 22⟩⟩, ⟨.identifier "x", ⟨22, 23⟩⟩,
    ⟨.symbol .closeParen, ⟨23, 24⟩⟩, ⟨.symbol .eq, ⟨25, 27⟩⟩, ⟨.literal (.integer 2), ⟨28, 29⟩⟩,
    ⟨.symbol .closeParen, ⟨29, 30⟩⟩, ⟨.symbol .closeParen, ⟨30, 31⟩⟩,
    ⟨.identifier "x", ⟨32, 33⟩⟩, ⟨.symbol .assign, ⟨34, 35⟩⟩, ⟨.symbol .openParen, ⟨36, 37⟩⟩,
    ⟨.identifier "x", ⟨37, 38⟩⟩, ⟨.symbol .plus, ⟨39, 40⟩⟩, ⟨.literal (.integer 1), ⟨41, 42⟩⟩,
    ⟨.symbol .closeParen, ⟨42, 43⟩⟩, ⟨.symbol .semicolon, ⟨43, 44⟩⟩,
    ⟨.symbol .closeBrace, ⟨45, 46⟩⟩]
  let body (first second target operand : Span) : List Statement :=
    [.loop (.not (.or (.relation .less (.identifier ⟨"x", first⟩) (.literal (.integer 1)))
        (.relation .equal (.identifier ⟨"x", second⟩) (.literal (.integer 2)))))
      (.assign ⟨"x", target⟩ (.binary .add (.identifier ⟨"x", operand⟩) (.literal (.integer 1))))]
  let program : Program := ⟨[⟨[⟨"x", ⟨0, 1⟩⟩], .int⟩], body ⟨15, 16⟩ ⟨20, 21⟩ ⟨26, 27⟩ ⟨28, 29⟩⟩
  let twin : Program := ⟨[], body ⟨11, 12⟩ ⟨22, 23⟩ ⟨32, 33⟩ ⟨37, 38⟩⟩
  have cut : tokens source = .ok found := tokens_ok.mpr (by decide +kernel)
  have read : Program.ofTokens found = .ok program := by cbv
  have cutTwin : tokens other = .ok others := tokens_ok.mpr (by decide +kernel)
  have readTwin : Program.ofTokens others = .ok twin := by cbv
  have same : program.bodyText = twin.bodyText := by decide +kernel
  exact ⟨found, program, others, twin, cut, read, cutTwin, readTwin, by decide +kernel, same,
    bodyText_unambiguous cut read cutTwin readTwin same⟩

end Cpl
