import Cpl.Proofs.Grammar.Statements

namespace Cpl

namespace Grammar

section Declarations

/-- Each type has one word. -/
theorem scalar?_some {token : Token} {scalar : Scalar} :
    scalar? token = some scalar ↔ token.kind = .keyword scalar.word := by
  rw [scalar?]
  cases scalar <;> split <;> simp_all [Scalar.word]

/-- Names, each after a comma. -/
inductive LaterIdents : List Token → List Ident → Prop
  | nil : LaterIdents [] []
  | cons {tokens : List Token} {comma token : Token} {name : String} {idents : List Ident}
      (separated : comma.kind = .symbol .comma) (named : token.kind = .identifier name)
      (later : LaterIdents tokens idents) :
      LaterIdents (comma :: token :: tokens) (⟨name, token.span⟩ :: idents)

/-- A list of names is a name and the names after it. -/
theorem identsPhrase_iff {tokens : List Token} {idents : List Ident} :
    IdentsPhrase tokens idents ↔
      ∃ token name later others, token.kind = .identifier name ∧ LaterIdents later others ∧
        tokens = token :: later ∧ idents = ⟨name, token.span⟩ :: others := by
  constructor
  · intro phrase
    induction phrase with
    | one named => exact ⟨_, _, [], [], named, .nil, rfl, rfl⟩
    | more named separated _ ih =>
        obtain ⟨token, name, later, others, next, more, rfl, rfl⟩ := ih
        exact ⟨_, _, _, _, named, .cons separated next more, rfl, rfl⟩
  · intro ⟨token, name, later, others, named, more, whole, same⟩
    subst whole same
    induction more generalizing token name with
    | nil => exact .one named
    | cons separated next _ ih => exact .more named separated (ih _ _ next)

/-- A list of names goes on at commas. -/
def commaGoesOn (token : Token) : Bool := token.kind = .symbol .comma

/-- Later names that are read are spelled by the tokens that are used. -/
theorem laterIdents_sound {limit : Nat} {tokens rest : List Token} {idents : List Ident}
    {shorter : tokens.length < limit}
    (read : Reads (laterIdents limit tokens shorter) idents rest) :
    ∃ used, tokens = used ++ rest ∧ LaterIdents used idents := by
  fun_induction laterIdents limit tokens shorter generalizing idents rest with
  | case1 =>
      obtain ⟨rfl, rfl⟩ := reads_ok.mp read
      exact ⟨[], rfl, .nil⟩
  | case2 => exact absurd read reads_error
  | case3 => exact absurd read reads_error
  | case4 comma later shorter separated first found others below _ ih =>
      obtain ⟨rfl, rfl⟩ := reads_ok.mp read
      obtain ⟨token, name, whole, named, same⟩ := reads_identifier.mp ⟨first.shorter, found⟩
      obtain ⟨used, rest, phrase⟩ := ih ⟨others.shorter, below⟩
      rw [same]
      exact ⟨comma :: token :: used, by simp [whole, rest], .cons separated named phrase⟩
  | case5 =>
      obtain ⟨rfl, rfl⟩ := reads_ok.mp read
      exact ⟨[], rfl, .nil⟩

/-- A comma and a name are read before later names. -/
theorem laterIdents_more {limit : Nat} {comma token : Token} {later rest : List Token}
    {name : String} {idents : List Ident} {shorter : (comma :: token :: later).length < limit}
    (separated : comma.kind = .symbol .comma) (named : token.kind = .identifier name)
    (more : ∀ below, Reads (laterIdents limit later below) idents rest) :
    Reads (laterIdents limit (comma :: token :: later) shorter) (⟨name, token.span⟩ :: idents)
      rest := by
  have found : Reads (identifier .declaration (token :: later)) ⟨name, token.span⟩ later :=
    reads_identifier.mpr ⟨token, name, rfl, named, rfl⟩
  obtain ⟨_, found⟩ := found
  obtain ⟨_, below⟩ := more (Nat.lt_of_succ_lt (Nat.lt_of_succ_lt shorter))
  rw [laterIdents, if_pos separated]
  simp [found, below]

/-- Later names that are spelled are read. -/
theorem laterIdents_complete {limit : Nat} {used rest : List Token} {idents : List Ident}
    (phrase : LaterIdents used idents) (stopped : Stops commaGoesOn rest)
    (shorter : (used ++ rest).length < limit) :
    Reads (laterIdents limit (used ++ rest) shorter) idents rest := by
  induction phrase with
  | nil =>
      rw [laterIdents.eq_def]
      cases rest with
      | nil => exact reads_ok.mpr ⟨rfl, rfl⟩
      | cons token later =>
          have ended : token.kind ≠ .symbol .comma := by simpa [commaGoesOn] using stopped
          simp [ended]
  | cons separated named _ ih => exact laterIdents_more separated named ih

/-- The reader of later names reads all of them and nothing else. -/
theorem laterIdents_exact {limit : Nat} {tokens : List Token} (shorter : tokens.length < limit) :
    Exact LaterIdents commaGoesOn tokens (laterIdents limit tokens shorter) where
  sound := laterIdents_sound
  complete whole phrase stopped := by
    subst whole
    exact laterIdents_complete phrase stopped shorter

/-- The reader of declarations is exact. -/
theorem declaration_exact (tokens : List Token) :
    Exact DeclarationPhrase never tokens (declaration tokens) where
  sound {result rest} read := by
    obtain ⟨_, _, _, firstRead, read⟩ := reads_bind read
    obtain ⟨_, _, _, laterRead, read⟩ := reads_bind read
    obtain ⟨_, _, _, colonRead, read⟩ := reads_bind read
    obtain ⟨_, _, _, typeRead, read⟩ := reads_bind read
    obtain ⟨_, _, _, closeRead, read⟩ := reads_bind read
    obtain ⟨rfl, rfl⟩ := reads_pure.mp read
    obtain ⟨closing, rfl, ended⟩ := reads_symbol.mp closeRead
    obtain ⟨word, rfl, typed⟩ := reads_single.mp typeRead
    obtain ⟨colon, rfl, separated⟩ := reads_symbol.mp colonRead
    obtain ⟨later, rfl, others⟩ := (laterIdents_exact _).sound laterRead
    obtain ⟨token, name, rfl, named, rfl⟩ := reads_identifier.mp firstRead
    have names := identsPhrase_iff.mpr ⟨token, name, later, _, named, others, rfl, rfl⟩
    exact ⟨token :: later ++ [colon, word, closing], by simp,
      .declare names separated (scalar?_some.mp typed) ended⟩
  complete {result read rest} whole phrase _ := by
    obtain ⟨names, separated, typed, ended⟩ := phrase
    obtain ⟨token, name, later, others, named, more, rfl, rfl⟩ := identsPhrase_iff.mp names
    rw [List.cons_append, List.cons_append, List.append_assoc] at whole
    apply (reads_identifier.mpr ⟨token, name, whole, named, rfl⟩).bind
    intro _
    apply ((laterIdents_exact _).complete rfl more
      (stops_cons.mpr (by simp [commaGoesOn, separated]))).bind
    intro _
    apply (reads_symbol.mpr ⟨_, rfl, separated⟩).bind
    intro _
    apply (reads_single.mpr ⟨_, rfl, scalar?_some.mpr typed⟩).bind
    intro _
    apply (reads_symbol.mpr ⟨_, rfl, ended⟩).bind
    exact fun _ => reads_pure.mpr ⟨rfl, rfl⟩

/-- A declaration starts with a token, and not with the brace that opens a block. -/
theorem DeclarationPhrase.head {tokens : List Token} {result : Declaration}
    (phrase : DeclarationPhrase tokens result) :
    ∃ first more, tokens = first :: more ∧ first.kind ≠ .symbol .openBrace := by
  obtain ⟨names, _, _, _⟩ := phrase
  obtain ⟨token, name, later, others, named, _, rfl, _⟩ := identsPhrase_iff.mp names
  exact ⟨token, _, rfl, by simp [named]⟩

/-- Declarations, and then a block that is left. -/
def DeclaredPhrase (tokens : List Token) (declared : List Declaration) (rest : List Token) : Prop :=
  ∃ parts : List (List Token × Declaration), (∀ part ∈ parts, DeclarationPhrase part.1 part.2) ∧
    declared = parts.map Prod.snd ∧ tokens = (parts.map Prod.fst).flatten ++ rest ∧
    ∃ opening later, rest = opening :: later ∧ opening.kind = .symbol .openBrace

/-- Declarations that are read are spelled by the tokens that are used. -/
theorem declarations_sound {tokens rest : List Token} {declared : List Declaration}
    (read : declarations tokens = .ok (declared, rest)) : DeclaredPhrase tokens declared rest := by
  fun_induction declarations tokens generalizing declared rest with
  | case1 => cases read
  | case2 token later opened =>
      cases read
      exact ⟨[], by simp, rfl, rfl, token, later, rfl, opened⟩
  | case3 => cases read
  | case4 => cases read
  | case5 token later different first found others body below ih =>
      cases read
      obtain ⟨used, whole, phrase⟩ := (declaration_exact _).sound ⟨first.shorter, found⟩
      obtain ⟨parts, phrases, same, rest, opens⟩ := ih below
      refine ⟨(used, first.value) :: parts, List.forall_mem_cons.mpr ⟨phrase, phrases⟩, ?_, ?_,
        opens⟩
      · simp [same]
      · simp [whole, rest]

/-- A declaration is read before others where no block starts. -/
theorem declarations_more {token : Token} {later middle rest : List Token} {first : Declaration}
    {declared : List Declaration} (different : token.kind ≠ .symbol .openBrace)
    (read : Reads (declaration (token :: later)) first middle)
    (more : declarations middle = .ok (declared, rest)) :
    declarations (token :: later) = .ok (first :: declared, rest) := by
  obtain ⟨_, found⟩ := read
  rw [declarations, if_neg different]
  simp only [found, more]

/-- Declarations that are spelled are read. -/
theorem declarations_complete {tokens rest : List Token} {declared : List Declaration}
    (phrase : DeclaredPhrase tokens declared rest) : declarations tokens = .ok (declared, rest) := by
  obtain ⟨parts, phrases, rfl, whole, opening, later, rfl, opened⟩ := phrase
  induction parts generalizing tokens with
  | nil =>
      have layout : tokens = opening :: later := whole
      rw [layout, declarations, if_pos opened]
      rfl
  | cons part parts ih =>
      obtain ⟨phrase, others⟩ := List.forall_mem_cons.mp phrases
      obtain ⟨first, more, start, different⟩ := phrase.head
      rw [List.map_cons, List.flatten_cons, List.append_assoc] at whole
      have read := (declaration_exact tokens).complete whole phrase (stops_never _)
      rw [start] at whole
      subst whole
      exact declarations_more different read (ih others rfl)

end Declarations

section Programs

/-- A block starts with a brace. -/
theorem StatementPhrase.opening {tokens : List Token} {body : List Statement}
    (phrase : StatementPhrase tokens (.block body)) :
    ∃ opening later, tokens = opening :: later ∧ opening.kind = .symbol .openBrace := by
  cases phrase with
  | block opened => exact ⟨_, _, rfl, opened⟩

/-- The reader of blocks is exact. -/
theorem block_exact (tokens : List Token) :
    Exact (fun used body => StatementPhrase used (.block body)) never tokens (block tokens) where
  sound {body rest} read := by
    obtain ⟨_, _, _, openRead, read⟩ := reads_bind read
    obtain ⟨opening, rfl, opened⟩ := reads_symbol.mp openRead
    obtain ⟨_, bodyRead, rfl⟩ := (reads_map id).mp read
    obtain ⟨_, rfl, parts, closing, phrases, closed, rfl, rfl⟩ :=
      blockRest_sound (fun inside _ => statement_exact inside) bodyRead
    exact ⟨_, rfl, .block opened phrases closed⟩
  complete {body read rest} whole phrase _ := by
    cases phrase with
    | block opened phrases closed =>
        apply (reads_symbol.mpr ⟨_, whole, opened⟩).bind
        intro _
        have bodyRead := (blockRest_exact (fun inside _ => statement_exact inside)
          (Nat.le_refl _)).complete rfl ⟨_, _, phrases, closed, rfl, rfl⟩ (stops_never rest)
        exact (reads_map id).mpr ⟨_, bodyRead, rfl⟩

/-- A program is read if its declarations are and its block is all that follows them. -/
theorem program_ok {tokens : List Token} {result : Program} :
    Grammar.program tokens = .ok result ↔
      ∃ declared rest body, declarations tokens = .ok (declared, rest) ∧
        Reads (block rest) body [] ∧ result = ⟨declared, body⟩ := by
  constructor
  · intro read
    rw [Grammar.program] at read
    cases found : declarations tokens with
    | error failure =>
        rw [found] at read
        cases read
    | ok pair =>
        obtain ⟨declared, rest⟩ := pair
        rw [found] at read
        change (block rest >>= _) = _ at read
        cases bodyFound : block rest with
        | error failure =>
            rw [bodyFound] at read
            cases read
        | ok parsed =>
            obtain ⟨body, left, shorter⟩ := parsed
            rw [bodyFound] at read
            cases left with
            | nil =>
                cases read
                exact ⟨declared, rest, body, rfl, ⟨shorter, bodyFound⟩, rfl⟩
            | cons token more => cases read
  · intro ⟨declared, rest, body, found, ⟨_, bodyFound⟩, same⟩
    rw [Grammar.program, found]
    change (block rest >>= _) = _
    rw [bodyFound, same]
    rfl

/-- Failures get a place, and programs stay as they are read. -/
theorem ofTokens_ok {tokens : List Token} {result : Program} :
    Program.ofTokens tokens = .ok result ↔ Grammar.program tokens = .ok result := by
  rw [Program.ofTokens]
  cases Grammar.program tokens with
  | error failure =>
      constructor
      · intro read
        cases read
      · intro read
        cases read
  | ok found =>
      constructor
      · intro read
        cases read
        rfl
      · intro read
        cases read
        rfl

/-- The programs that are read are those that the grammar spells. -/
theorem program_iff_phrase {tokens : List Token} {result : Program} :
    Grammar.program tokens = .ok result ↔ ProgramPhrase tokens result := by
  rw [program_ok]
  constructor
  · intro ⟨declared, rest, body, found, bodyRead, same⟩
    obtain ⟨parts, phrases, rfl, rfl, _⟩ := declarations_sound found
    obtain ⟨used, rfl, phrase⟩ := (block_exact _).sound bodyRead
    rw [List.append_nil, same]
    exact .program phrases phrase
  · intro phrase
    cases phrase with
    | @program parts used body phrases bodyPhrase =>
        have found := declarations_complete
          ⟨parts, phrases, rfl, rfl, bodyPhrase.opening⟩
        have bodyRead := (block_exact used).complete (List.append_nil used).symm bodyPhrase stops_nil
        exact ⟨_, used, body, found, bodyRead, rfl⟩

/-- Products bind more tightly than sums, on either side of them. -/
def ProductsBindTighter : Prop :=
  ∀ {left middle right : List Token} {sumSign productSign : Token} {sum product : ArithOp}
    {first second third : Expr}, sum = .add ∨ sum = .subtract →
    product = .multiply ∨ product = .divide → sumSign.kind = .symbol sum.sign →
    productSign.kind = .symbol product.sign → ExprPhrase .term left first →
    ExprPhrase .factor middle second → ExprPhrase .factor right third → ∀ value,
    (ExprPhrase .expression (left ++ sumSign :: (middle ++ productSign :: right)) value ↔
        value = .binary sum first (.binary product second third)) ∧
      (ExprPhrase .expression (left ++ productSign :: middle ++ sumSign :: right) value ↔
        value = .binary sum (.binary product first second) third)

/-- Conjunctions bind more tightly than disjunctions, on either side of them. -/
def ConjunctionsBindTighter : Prop :=
  ∀ {left middle right : List Token} {orSign andSign : Token} {first second third : Condition},
    orSign.kind = .symbol .or → andSign.kind = .symbol .and → ConditionPhrase .term left first →
    ConditionPhrase .factor middle second → ConditionPhrase .factor right third → ∀ test,
    (ConditionPhrase .expression (left ++ orSign :: (middle ++ andSign :: right)) test ↔
        test = .or first (.and second third)) ∧
      (ConditionPhrase .expression (left ++ andSign :: middle ++ orSign :: right) test ↔
        test = .or (.and first second) third)

/-- Tokens spell one expression only. -/
theorem exprPhrase_iff {tokens : List Token} {tree : Expr}
    (phrase : ExprPhrase .expression tokens tree) (value : Expr) :
    ExprPhrase .expression tokens value ↔ value = tree := by
  constructor
  · exact fun other => (expression_exact _).unique other phrase
  · intro same
    rw [same]
    exact phrase

/-- Tokens spell one condition only. -/
theorem conditionPhrase_iff {tokens : List Token} {tree : Condition}
    (phrase : ConditionPhrase .expression tokens tree) (test : Condition) :
    ConditionPhrase .expression tokens test ↔ test = tree := by
  constructor
  · exact fun other =>
      (disjunction_exact fun inside _ => conditionFactor_exact inside).unique other phrase
  · intro same
    rw [same]
    exact phrase

/-- Products are grouped before sums. -/
theorem products_bindTighter : ProductsBindTighter := by
  intro left middle right sumSign productSign sum product first second third additive
    multiplicative sumSigned productSigned before between after value
  have behind := (ExprPhrase.ofFactor between).product multiplicative productSigned after
  have ahead := before.product multiplicative productSigned between
  exact ⟨exprPhrase_iff ((ExprPhrase.ofTerm before).sum additive sumSigned behind) value,
    exprPhrase_iff ((ExprPhrase.ofTerm ahead).sum additive sumSigned (.ofFactor after)) value⟩

/-- Conjunctions are grouped before disjunctions. -/
theorem conjunctions_bindTighter : ConjunctionsBindTighter := by
  intro left middle right orSign andSign first second third orSigned andSigned before between after
    test
  have behind := (ConditionPhrase.ofFactor between).and andSigned after
  have ahead := before.and andSigned between
  exact ⟨conditionPhrase_iff ((ConditionPhrase.ofTerm before).or orSigned behind) test,
    conditionPhrase_iff ((ConditionPhrase.ofTerm ahead).or orSigned (.ofFactor after)) test⟩

/-- Tokens are read as a program exactly if the grammar spells it with them, which it does for one
program at most. -/
theorem ofTokens_grammar :
    (∀ tokens program, Program.ofTokens tokens = .ok program ↔ ProgramPhrase tokens program) ∧
      (∀ tokens first second, ProgramPhrase tokens first → ProgramPhrase tokens second →
        first = second) ∧ ProductsBindTighter ∧ ConjunctionsBindTighter := by
  refine ⟨?_, ?_, products_bindTighter, conjunctions_bindTighter⟩
  · intro tokens program
    rw [← program_iff_phrase, ofTokens_ok]
  · intro tokens first second firstPhrase secondPhrase
    rw [← program_iff_phrase] at firstPhrase secondPhrase
    exact Except.ok.inj (firstPhrase.symm.trans secondPhrase)

/-- A program that declares one variable and assigns it the sum of itself and its square. -/
theorem square_ofTokens :
    let x : Token := ⟨.identifier "x", .point 0⟩
    let mark (symbol : Symbol) : Token := ⟨.symbol symbol, .point 1⟩
    let word : Token := ⟨.keyword .intWord, .point 2⟩
    let ident : Ident := ⟨"x", .point 0⟩
    Program.ofTokens [x, mark .colon, word, mark .semicolon, mark .openBrace, x, mark .assign,
        x, mark .plus, x, mark .asterisk, x, mark .semicolon, mark .closeBrace] =
      .ok ⟨[⟨[ident], .int⟩], [.assign ident (.binary .add (.identifier ident)
        (.binary .multiply (.identifier ident) (.identifier ident)))]⟩ := by
  intro x mark word ident
  have factor : ExprPhrase .factor [x] (.identifier ident) := .identifier rfl
  have square := (ExprPhrase.ofFactor factor).product (.inl rfl) (show (mark .asterisk).kind = _
    from rfl) factor
  have value := (ExprPhrase.ofTerm (.ofFactor factor)).sum (.inl rfl) (show (mark .plus).kind = _
    from rfl) square
  have declared : ∀ part ∈ [([x, mark .colon, word, mark .semicolon],
      (⟨[ident], .int⟩ : Declaration))], DeclarationPhrase part.1 part.2 :=
    List.forall_mem_singleton.mpr (.declare (.one rfl) rfl rfl rfl)
  have assigned : ∀ part ∈ [([x, mark .assign, x, mark .plus, x, mark .asterisk, x,
      mark .semicolon], Statement.assign ident _)], StatementPhrase part.1 part.2 :=
    List.forall_mem_singleton.mpr (.assign rfl rfl value rfl)
  have body : StatementPhrase (mark .openBrace :: (_ ++ [mark .closeBrace])) _ :=
    .block rfl assigned rfl
  exact (ofTokens_grammar.1 _ _).mpr (.program declared body)

end Programs

end Grammar

end Cpl
