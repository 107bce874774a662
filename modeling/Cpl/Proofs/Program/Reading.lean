import Cpl.Proofs.Grammar.Places
import Cpl.Proofs.Program.Wording

namespace Cpl

open Grammar

/-- Names without their places. -/
def Respelling.placeless : Respelling := .moving fun _ => .point 0

mutual

/-- There are no branches and no loops in a statement. -/
def Statement.straight : Statement → Bool
  | .assign _ _ | .input _ | .output _ => true
  | .branch _ _ _ | .loop _ _ => false
  | .block body => Statement.straightAll body

def Statement.straightAll : List Statement → Bool
  | [] => true
  | first :: later => first.straight && Statement.straightAll later

end

section Tokens
variable {found : List Token} {kinds others : List TokenKind}

/-- Tokens in parentheses, and those after them. -/
theorem enclosed_kinds (same : found.map Token.kind =
      .symbol .openParen :: (kinds ++ .symbol .closeParen :: others)) :
    ∃ opening inner closing later, found = opening :: (inner ++ closing :: later) ∧
      opening.kind = .symbol .openParen ∧ inner.map Token.kind = kinds ∧
      closing.kind = .symbol .closeParen ∧ later.map Token.kind = others := by
  obtain ⟨opening, found, rfl, opened, same⟩ := List.map_eq_cons_iff.mp same
  obtain ⟨inner, found, rfl, content, same⟩ := List.map_eq_append_iff.mp same
  obtain ⟨closing, later, rfl, closed, same⟩ := List.map_eq_cons_iff.mp same
  exact ⟨opening, inner, closing, later, rfl, opened, content, closed, same⟩

end Tokens

section Expressions

/-- Factors with a sign between them are an expression. -/
theorem factors_phrase {left right : List Token} {sign : Token} {op : ArithOp} {first second : Expr}
    (before : ExprPhrase .factor left first) (signed : sign.kind = .symbol op.sign)
    (after : ExprPhrase .factor right second) :
    ExprPhrase .expression (left ++ sign :: right) (.binary op first second) := by
  cases op with
  | add => exact .sum (.ofTerm (.ofFactor before)) (.inl rfl) signed (.ofFactor after)
  | subtract => exact .sum (.ofTerm (.ofFactor before)) (.inr rfl) signed (.ofFactor after)
  | multiply => exact .ofTerm (.product (.ofFactor before) (.inl rfl) signed after)
  | divide => exact .ofTerm (.product (.ofFactor before) (.inr rfl) signed after)

/-- An expression is read from its tokens as a factor, since all that it has inside is in
parentheses. -/
theorem Expr.phrase (value : Expr) {found : List Token}
    (same : found.map Token.kind = value.kinds) :
    ∃ image, ExprPhrase .factor found image ∧
      image.respell .placeless = value.respell .placeless := by
  induction value generalizing found with
  | literal constant =>
      obtain ⟨token, rfl, written⟩ := List.map_eq_singleton_iff.mp same
      exact ⟨.literal constant, .literal written, rfl⟩
  | identifier ident =>
      obtain ⟨token, rfl, named⟩ := List.map_eq_singleton_iff.mp same
      exact ⟨.identifier ⟨ident.name, token.span⟩, .identifier named, rfl⟩
  | binary op left right ihLeft ihRight =>
      have split : (binary op left right).kinds = .symbol .openParen ::
          ((left.kinds ++ .symbol op.sign :: right.kinds) ++ .symbol .closeParen :: []) := by
        simp [kinds]
      obtain ⟨opening, inner, closing, later, rfl, opened, content, closed, ended⟩ :=
        enclosed_kinds (same.trans split)
      obtain ⟨before, inner, rfl, leftKinds, content⟩ := List.map_eq_append_iff.mp content
      obtain ⟨sign, after, rfl, signed, rightKinds⟩ := List.map_eq_cons_iff.mp content
      obtain ⟨first, firstPhrase, firstSame⟩ := ihLeft leftKinds
      obtain ⟨second, secondPhrase, secondSame⟩ := ihRight rightKinds
      rw [List.map_eq_nil_iff] at ended
      subst ended
      refine ⟨.binary op first second, ?_, ?_⟩
      · exact .parenthesised opened (factors_phrase firstPhrase signed secondPhrase) closed
      · rw [respell, respell, firstSame, secondSame]
  | cast target operand ih =>
      obtain ⟨word, found, rfl, converted, same⟩ := List.map_eq_cons_iff.mp same
      obtain ⟨opening, inner, closing, later, rfl, opened, content, closed, ended⟩ :=
        enclosed_kinds same
      obtain ⟨image, phrase, imageSame⟩ := ih content
      rw [List.map_eq_nil_iff] at ended
      subst ended
      refine ⟨.cast target image, ?_, ?_⟩
      · exact .cast converted opened (.ofTerm (.ofFactor phrase)) closed
      · rw [respell, respell, imageSame]

end Expressions

section Statements

mutual

/-- A statement without branches and loops is read from its tokens. -/
theorem Statement.phrase : ∀ (statement : Statement), statement.straight = true →
    ∀ {found : List Token}, found.map Token.kind = statement.kinds →
      ∃ image, StatementPhrase found image ∧
        image.respell .placeless = statement.respell .placeless
  | .assign target value, _, found, same => by
      obtain ⟨name, found, rfl, named, same⟩ := List.map_eq_cons_iff.mp same
      obtain ⟨sign, found, rfl, signed, same⟩ := List.map_eq_cons_iff.mp same
      obtain ⟨inner, found, rfl, content, same⟩ := List.map_eq_append_iff.mp same
      obtain ⟨closing, rfl, ended⟩ := List.map_eq_singleton_iff.mp same
      obtain ⟨image, phrase, imageSame⟩ := value.phrase content
      refine ⟨.assign ⟨target.name, name.span⟩ image, ?_, ?_⟩
      · exact .assign named signed (.ofTerm (.ofFactor phrase)) ended
      · rw [Statement.respell, Statement.respell, imageSame]
        rfl
  | .input target, _, found, same => by
      obtain ⟨word, found, rfl, worded, same⟩ := List.map_eq_cons_iff.mp same
      obtain ⟨opening, found, rfl, opened, same⟩ := List.map_eq_cons_iff.mp same
      obtain ⟨name, found, rfl, named, same⟩ := List.map_eq_cons_iff.mp same
      obtain ⟨closing, found, rfl, closed, same⟩ := List.map_eq_cons_iff.mp same
      obtain ⟨ending, rfl, ended⟩ := List.map_eq_singleton_iff.mp same
      exact ⟨.input ⟨target.name, name.span⟩, .input worded opened named closed ended, rfl⟩
  | .output value, _, found, same => by
      obtain ⟨word, found, rfl, worded, same⟩ := List.map_eq_cons_iff.mp same
      obtain ⟨opening, inner, closing, later, rfl, opened, content, closed, same⟩ :=
        enclosed_kinds same
      obtain ⟨ending, rfl, ended⟩ := List.map_eq_singleton_iff.mp same
      obtain ⟨image, phrase, imageSame⟩ := value.phrase content
      refine ⟨.output image, ?_, ?_⟩
      · exact .output worded opened (.ofTerm (.ofFactor phrase)) closed ended
      · rw [Statement.respell, Statement.respell, imageSame]
  | .block body, straight, found, same => by
      obtain ⟨opening, found, rfl, opened, same⟩ := List.map_eq_cons_iff.mp same
      obtain ⟨inner, found, rfl, content, same⟩ := List.map_eq_append_iff.mp same
      obtain ⟨closing, rfl, closed⟩ := List.map_eq_singleton_iff.mp same
      obtain ⟨parts, each, rfl, partsSame⟩ := Statement.phrases body straight content
      refine ⟨.block (parts.map Prod.snd), .block opened each closed, ?_⟩
      rw [Statement.respell, Statement.respell, partsSame]

/-- Tokens of the kinds of some statements are phrases of them, up to places. -/
theorem Statement.phrases : ∀ (body : List Statement), Statement.straightAll body = true →
    ∀ {found : List Token}, found.map Token.kind = Statement.kindsOf body →
      ∃ parts : List (List Token × Statement),
        (∀ part ∈ parts, StatementPhrase part.1 part.2) ∧ found = (parts.map Prod.fst).flatten ∧
        Statement.respellAll .placeless (parts.map Prod.snd) =
          Statement.respellAll .placeless body
  | [], _, found, same => ⟨[], by simp, List.map_eq_nil_iff.mp same, rfl⟩
  | first :: later, straight, found, same => by
      obtain ⟨own, others⟩ := Bool.and_eq_true_iff.mp straight
      obtain ⟨start, found, rfl, ownKinds, same⟩ := List.map_eq_append_iff.mp same
      obtain ⟨image, phrase, imageSame⟩ := first.phrase own ownKinds
      obtain ⟨parts, each, rfl, partsSame⟩ := Statement.phrases later others same
      refine ⟨(start, image) :: parts, List.forall_mem_cons.mpr ⟨phrase, each⟩, rfl, ?_⟩
      rw [List.map_cons, Statement.respellAll, Statement.respellAll, imageSame, partsSame]

end

end Statements

section Programs

/-- Tokens of the kinds of some identifiers are a phrase of them, up to places. -/
theorem Ident.phrase {idents : List Ident} (some : idents ≠ []) {found : List Token}
    (same : found.map Token.kind = Ident.kindsOf idents) :
    ∃ image, IdentsPhrase found image ∧
      image.map (Ident.respell .placeless) = idents.map (Ident.respell .placeless) := by
  fun_induction Ident.kindsOf idents generalizing found with
  | case1 => contradiction
  | case2 ident =>
      obtain ⟨token, rfl, named⟩ := List.map_eq_singleton_iff.mp same
      exact ⟨[⟨ident.name, token.span⟩], .one named, rfl⟩
  | case3 ident next later ih =>
      obtain ⟨token, found, rfl, named, same⟩ := List.map_eq_cons_iff.mp same
      obtain ⟨comma, found, rfl, separated, same⟩ := List.map_eq_cons_iff.mp same
      obtain ⟨image, phrase, imageSame⟩ := ih (List.cons_ne_nil _ _) same
      refine ⟨⟨ident.name, token.span⟩ :: image, .more named separated phrase, ?_⟩
      rw [List.map_cons, imageSame]
      rfl

/-- Tokens of the kinds of a declaration are a phrase of it, up to places. -/
theorem Declaration.phrase {declaration : Declaration} (some : declaration.idents ≠ [])
    {found : List Token} (same : found.map Token.kind = declaration.kinds) :
    ∃ image, DeclarationPhrase found image ∧
      image.respell .placeless = declaration.respell .placeless := by
  obtain ⟨names, found, rfl, namesKinds, same⟩ := List.map_eq_append_iff.mp same
  obtain ⟨colon, found, rfl, separated, same⟩ := List.map_eq_cons_iff.mp same
  obtain ⟨word, found, rfl, typed, same⟩ := List.map_eq_cons_iff.mp same
  obtain ⟨closing, rfl, ended⟩ := List.map_eq_singleton_iff.mp same
  obtain ⟨image, phrase, imageSame⟩ := Ident.phrase some namesKinds
  refine ⟨⟨image, declaration.scalar⟩, .declare phrase separated typed ended, ?_⟩
  rw [Declaration.respell, Declaration.respell, imageSame]

/-- Tokens of the kinds of some declarations are phrases of them, up to places. -/
theorem Declaration.phrases {declarations : List Declaration}
    (some : ∀ declaration ∈ declarations, declaration.idents ≠ []) {found : List Token}
    (same : found.map Token.kind = declarations.flatMap Declaration.kinds) :
    ∃ parts : List (List Token × Declaration),
      (∀ part ∈ parts, DeclarationPhrase part.1 part.2) ∧ found = (parts.map Prod.fst).flatten ∧
      (parts.map Prod.snd).map (Declaration.respell .placeless) =
        declarations.map (Declaration.respell .placeless) := by
  induction declarations generalizing found with
  | nil => exact ⟨[], by simp, List.map_eq_nil_iff.mp same, rfl⟩
  | cons first later ih =>
      rw [List.flatMap_cons] at same
      obtain ⟨own, others⟩ := List.forall_mem_cons.mp some
      obtain ⟨start, found, rfl, ownKinds, same⟩ := List.map_eq_append_iff.mp same
      obtain ⟨image, phrase, imageSame⟩ := Declaration.phrase own ownKinds
      obtain ⟨parts, each, rfl, partsSame⟩ := ih others same
      refine ⟨(start, image) :: parts, List.forall_mem_cons.mpr ⟨phrase, each⟩, rfl, ?_⟩
      rw [List.map_cons, List.map_cons, List.map_cons, imageSame, partsSame]

/-- A program without branches and loops, whose declarations have names, is read from its tokens. -/
theorem Program.phrase {program : Program}
    (named : ∀ declaration ∈ program.declarations, declaration.idents ≠ [])
    (straight : Statement.straightAll program.body = true) {found : List Token}
    (same : found.map Token.kind = program.kinds) :
    ∃ image, ProgramPhrase found image ∧
      image.respell .placeless = program.respell .placeless := by
  obtain ⟨start, found, rfl, declared, same⟩ := List.map_eq_append_iff.mp same
  obtain ⟨opening, found, rfl, opened, same⟩ := List.map_eq_cons_iff.mp same
  obtain ⟨inner, found, rfl, content, same⟩ := List.map_eq_append_iff.mp same
  obtain ⟨closing, rfl, closed⟩ := List.map_eq_singleton_iff.mp same
  obtain ⟨declarations, eachDeclaration, rfl, declarationsSame⟩ :=
    Declaration.phrases named declared
  obtain ⟨statements, each, rfl, bodySame⟩ := Statement.phrases program.body straight content
  refine ⟨⟨declarations.map Prod.snd, statements.map Prod.snd⟩, ?_, ?_⟩
  · exact .program eachDeclaration (.block opened each closed)
  · rw [Program.respell, Program.respell, declarationsSame, bodySame]

/-- Each declaration that is read has a name. -/
theorem declarations_named {found : List Token} {program : Program}
    (read : Program.ofTokens found = .ok program) :
    ∀ declaration ∈ program.declarations, declaration.idents ≠ [] := by
  rw [ofTokens_ok, program_iff_phrase] at read
  cases read with
  | @program parts tokens body each _ =>
      intro declaration member
      obtain ⟨⟨start, _⟩, within, rfl⟩ := List.mem_map.mp member
      have phrase : DeclarationPhrase start _ := each _ within
      cases phrase with
      | declare names => cases names <;> exact List.cons_ne_nil _ _

end Programs

/-- Showing a program without branches and loops as text inverts reading it. The text can be read,
and gives the same program with its names in other places. -/
theorem text_read {source : String} {found : List Token} {program : Program}
    (cut : tokens source = .ok found) (read : Program.ofTokens found = .ok program)
    (straight : Statement.straightAll program.body = true) {gap : String}
    (filler : Filler gap.toList) :
    ∃ shown image, tokens (program.text gap) = .ok shown ∧ Program.ofTokens shown = .ok image ∧
      image.respell .placeless = program.respell .placeless := by
  obtain ⟨shown, cutShown, kinds⟩ := Program.tokens_text (program_worded cut read) filler
  obtain ⟨image, phrase, same⟩ := Program.phrase (declarations_named read) straight kinds
  exact ⟨shown, image, cutShown, ofTokens_ok.mpr (program_iff_phrase.mpr phrase), same⟩

/-- A product of a cast and a difference in parentheses, and a block without statements. -/
theorem castProduct_read :
    let source := "x,y:float;\x7bx=staticcastfloat(07)*(y-1.50);\x7b\x7dinput(y);\x7d"
    ∃ found program, tokens source = .ok found ∧ Program.ofTokens found = .ok program ∧
      Statement.straightAll program.body = true ∧
      program.text "" = "x, y: float;\x7b x = (staticcastfloat(7) * (y - 1.5)); " ++
        "\x7b \x7d input(y); \x7d" ∧
      ∃ shown image, tokens (program.text "") = .ok shown ∧
        Program.ofTokens shown = .ok image ∧
        image.respell .placeless = program.respell .placeless := by
  intro source
  let half : Binary64 := .nearest 150 100
  let found : List Token := [⟨.identifier "x", ⟨0, 1⟩⟩, ⟨.symbol .comma, ⟨1, 2⟩⟩,
    ⟨.identifier "y", ⟨2, 3⟩⟩, ⟨.symbol .colon, ⟨3, 4⟩⟩, ⟨.keyword .floatWord, ⟨4, 9⟩⟩,
    ⟨.symbol .semicolon, ⟨9, 10⟩⟩, ⟨.symbol .openBrace, ⟨10, 11⟩⟩, ⟨.identifier "x", ⟨11, 12⟩⟩,
    ⟨.symbol .assign, ⟨12, 13⟩⟩, ⟨.keyword .castFloat, ⟨13, 28⟩⟩, ⟨.symbol .openParen, ⟨28, 29⟩⟩,
    ⟨.literal (.integer 7), ⟨29, 31⟩⟩, ⟨.symbol .closeParen, ⟨31, 32⟩⟩,
    ⟨.symbol .asterisk, ⟨32, 33⟩⟩, ⟨.symbol .openParen, ⟨33, 34⟩⟩, ⟨.identifier "y", ⟨34, 35⟩⟩,
    ⟨.symbol .minus, ⟨35, 36⟩⟩, ⟨.literal (.float half), ⟨36, 40⟩⟩, ⟨.symbol .closeParen, ⟨40, 41⟩⟩,
    ⟨.symbol .semicolon, ⟨41, 42⟩⟩, ⟨.symbol .openBrace, ⟨42, 43⟩⟩,
    ⟨.symbol .closeBrace, ⟨43, 44⟩⟩, ⟨.keyword .inputWord, ⟨44, 49⟩⟩,
    ⟨.symbol .openParen, ⟨49, 50⟩⟩, ⟨.identifier "y", ⟨50, 51⟩⟩, ⟨.symbol .closeParen, ⟨51, 52⟩⟩,
    ⟨.symbol .semicolon, ⟨52, 53⟩⟩, ⟨.symbol .closeBrace, ⟨53, 54⟩⟩]
  let program : Program := ⟨[⟨[⟨"x", ⟨0, 1⟩⟩, ⟨"y", ⟨2, 3⟩⟩], .float⟩],
    [.assign ⟨"x", ⟨11, 12⟩⟩ (.binary .multiply (.cast .float (.literal (.integer 7)))
      (.binary .subtract (.identifier ⟨"y", ⟨34, 35⟩⟩) (.literal (.float half)))),
      .block [], .input ⟨"y", ⟨50, 51⟩⟩]⟩
  have cut : tokens source = .ok found := tokens_ok.mpr (by decide +kernel)
  have read : Program.ofTokens found = .ok program := by cbv
  have straight : Statement.straightAll program.body = true := by decide
  exact ⟨found, program, cut, read, straight, by decide +kernel,
    text_read cut read straight .nil⟩

end Cpl
