import Cpl.Program.Grammar

namespace Cpl

namespace Grammar

/-- A reader has read a value and left the rest. -/
def Reads {Value : Type} {limit : Nat} (outcome : Outcome Value limit) (value : Value)
    (rest : List Token) : Prop :=
  ∃ shorter, outcome = .ok ⟨value, rest, shorter⟩

section Steps
variable {First Second : Type} {limit other : Nat} {rest : List Token}

/-- A reader reads one value and leaves one rest. -/
theorem reads_unique {outcome : Outcome First limit} {first second : First} {later : List Token}
    (firstRead : Reads outcome first rest) (secondRead : Reads outcome second later) :
    first = second ∧ rest = later := by
  obtain ⟨_, done⟩ := firstRead
  obtain ⟨_, again⟩ := secondRead
  cases done.symm.trans again
  exact ⟨rfl, rfl⟩

@[simp] theorem reads_error {failure : Failure} {value : First} :
    ¬Reads (.error failure : Outcome First limit) value rest := by
  intro ⟨_, failed⟩
  cases failed

@[simp] theorem reads_ok {value result : First} {later : List Token}
    {shorter : later.length < limit} :
    Reads (.ok ⟨result, later, shorter⟩ : Outcome First limit) value rest ↔
      result = value ∧ later = rest := by
  constructor
  · intro ⟨_, same⟩
    cases same
    exact ⟨rfl, rfl⟩
  · intro ⟨sameValue, sameRest⟩
    subst sameValue sameRest
    exact ⟨shorter, rfl⟩

theorem reads_pure {value result : First} {later : List Token} {shorter : later.length < limit} :
    Reads (pure ⟨result, later, shorter⟩ : Outcome First limit) value rest ↔
      result = value ∧ later = rest := reads_ok

/-- A reader that goes on after another reads what the second reads. -/
theorem reads_bind {outcome : Outcome First limit} {next : Parsed First limit → Outcome Second other}
    {value : Second} (read : Reads (outcome >>= next) value rest) :
    ∃ first middle shorter, Reads outcome first middle ∧
      Reads (next ⟨first, middle, shorter⟩) value rest := by
  cases outcome with
  | error failure => exact absurd read reads_error
  | ok parsed => exact ⟨parsed.value, parsed.rest, parsed.shorter, ⟨parsed.shorter, rfl⟩, read⟩

/-- A reader that goes on after another reads what follows. -/
theorem Reads.bind {outcome : Outcome First limit} {next : Parsed First limit → Outcome Second other}
    {first : First} {middle : List Token} {value : Second} (read : Reads outcome first middle)
    (later : ∀ shorter, Reads (next ⟨first, middle, shorter⟩) value rest) :
    Reads (outcome >>= next) value rest := by
  obtain ⟨shorter, done⟩ := read
  rw [done]
  exact later shorter

/-- A reader that only makes something of what another reads. -/
theorem reads_map {outcome : Outcome First limit} {value : Second} (make : First → Second)
    {below : ∀ parsed : Parsed First limit, parsed.rest.length < other} :
    Reads (outcome >>= fun parsed => (pure ⟨make parsed.value, parsed.rest, below parsed⟩ :
      Outcome Second other)) value rest ↔ ∃ first, Reads outcome first rest ∧ make first = value := by
  constructor
  · intro read
    obtain ⟨first, _, _, firstRead, read⟩ := reads_bind read
    obtain ⟨made, rfl⟩ := reads_pure.mp read
    exact ⟨first, firstRead, made⟩
  · intro ⟨first, firstRead, made⟩
    exact firstRead.bind fun _ => reads_pure.mpr ⟨made, rfl⟩

/-- A reader of one token reads the first. -/
theorem reads_single {stage : Stage} {read : Token → Option First} {tokens : List Token}
    {value : First} :
    Reads (single stage read tokens) value rest ↔
      ∃ token, tokens = token :: rest ∧ read token = some value := by
  cases tokens with
  | nil => simp [single]
  | cons token later =>
      rw [single]
      cases found : read token with
      | none => simp [found]
      | some result =>
          constructor
          · intro read
            obtain ⟨rfl, rfl⟩ := reads_ok.mp read
            exact ⟨token, rfl, found⟩
          · intro spelled
            obtain ⟨_, same, again⟩ := spelled
            cases same
            cases found.symm.trans again
            exact reads_ok.mpr ⟨rfl, rfl⟩

/-- A symbol is read if it is the first token. -/
theorem reads_symbol {mark : Symbol} {stage : Stage} {tokens : List Token} :
    Reads (symbol mark stage tokens) () rest ↔
      ∃ token, tokens = token :: rest ∧ token.kind = .symbol mark := by
  simp [symbol, reads_single]

/-- A keyword is read if it is the first token. -/
theorem reads_keyword {word : Keyword} {stage : Stage} {tokens : List Token} :
    Reads (keyword word stage tokens) () rest ↔
      ∃ token, tokens = token :: rest ∧ token.kind = .keyword word := by
  simp [keyword, reads_single]

/-- Only identifiers stand for names, each with its own place. -/
theorem ident?_some {token : Token} {ident : Ident} :
    ident? token = some ident ↔
      ∃ name, token.kind = .identifier name ∧ ident = ⟨name, token.span⟩ := by
  rw [ident?]
  split <;> simp_all [eq_comm]

end Steps

/-- The tokens do not start with one that goes on. -/
def Stops (goesOn : Token → Bool) (rest : List Token) : Prop :=
  ∀ token ∈ rest.head?, goesOn token = false

@[simp] theorem stops_nil {goesOn : Token → Bool} : Stops goesOn [] := by simp [Stops]

@[simp] theorem stops_cons {goesOn : Token → Bool} {token : Token} {rest : List Token} :
    Stops goesOn (token :: rest) ↔ goesOn token = false := by simp [Stops]

/-- A reader reads phrases only, and reads each of them up to a token that does not go on. -/
structure Exact {Value : Type} {limit : Nat} (Phrase : List Token → Value → Prop)
    (goesOn : Token → Bool) (tokens : List Token) (outcome : Outcome Value limit) : Prop where
  sound {value : Value} {rest : List Token} :
    Reads outcome value rest → ∃ read, tokens = read ++ rest ∧ Phrase read value
  complete {value : Value} {read rest : List Token} :
    tokens = read ++ rest → Phrase read value → Stops goesOn rest → Reads outcome value rest

/-- Exactness depends on what the phrases are, and not on how they are described. -/
theorem Exact.congr {Value : Type} {limit : Nat} {Phrase Other : List Token → Value → Prop}
    {goesOn : Token → Bool} {tokens : List Token} {outcome : Outcome Value limit}
    (exact : Exact Phrase goesOn tokens outcome)
    (same : ∀ tokens value, Phrase tokens value ↔ Other tokens value) :
    Exact Other goesOn tokens outcome where
  sound read := by
    obtain ⟨used, whole, phrase⟩ := exact.sound read
    exact ⟨used, whole, (same _ _).mp phrase⟩
  complete whole phrase := exact.complete whole ((same _ _).mpr phrase)

/-- Tokens that are read exactly are one phrase at most. -/
theorem Exact.unique {Value : Type} {limit : Nat} {Phrase : List Token → Value → Prop}
    {goesOn : Token → Bool} {tokens : List Token} {outcome : Outcome Value limit}
    (exact : Exact Phrase goesOn tokens outcome) {first second : Value}
    (firstPhrase : Phrase tokens first) (secondPhrase : Phrase tokens second) : first = second :=
  (reads_unique (exact.complete (List.append_nil tokens).symm firstPhrase stops_nil)
    (exact.complete (List.append_nil tokens).symm secondPhrase stops_nil)).1

/-- A phrase that ends by itself goes on at no token. -/
def never (_ : Token) : Bool := false

theorem stops_never (rest : List Token) : Stops never rest := fun _ _ => rfl

section Enclosing
variable {Value : Type} {Phrase : List Token → Value → Prop} {goesOn : Token → Bool}

/-- A phrase between parentheses. -/
def Enclosed (Phrase : List Token → Value → Prop) (tokens : List Token) (value : Value) : Prop :=
  ∃ opening inner closing, opening.kind = .symbol .openParen ∧ Phrase inner value ∧
    closing.kind = .symbol .closeParen ∧ tokens = opening :: (inner ++ [closing])

/-- No phrase goes on at the parenthesis that closes it. -/
def ParenStops (goesOn : Token → Bool) : Prop :=
  ∀ token : Token, token.kind = .symbol .closeParen → goesOn token = false

/-- Parentheses around a phrase are read exactly if they end the phrase. -/
theorem enclosed_exact {stage : Stage} {tokens : List Token} {inner : Reader Value tokens.length}
    (each : ∀ inside within, Exact Phrase goesOn inside (inner inside within))
    (stopped : ParenStops goesOn) :
    Exact (Enclosed Phrase) never tokens (enclosed stage tokens inner) where
  sound {value rest} read := by
    obtain ⟨_, afterOpening, _, openRead, read⟩ := reads_bind read
    obtain ⟨_, afterContent, _, contentRead, read⟩ := reads_bind read
    obtain ⟨_, _, _, closeRead, read⟩ := reads_bind read
    obtain ⟨rfl, rfl⟩ := reads_pure.mp read
    obtain ⟨opening, whole, opened⟩ := reads_symbol.mp openRead
    obtain ⟨closing, rfl, closed⟩ := reads_symbol.mp closeRead
    obtain ⟨inside, rfl, phrase⟩ := (each _ _).sound contentRead
    exact ⟨opening :: (inside ++ [closing]), by simp [whole], opening, inside, closing, opened,
      phrase, closed, rfl⟩
  complete {value read rest} whole phrase _ := by
    obtain ⟨opening, inside, closing, opened, phrase, closed, rfl⟩ := phrase
    have layout : tokens = opening :: (inside ++ closing :: rest) := by simpa using whole
    apply (reads_symbol.mpr ⟨opening, layout, opened⟩).bind
    intro _
    apply ((each _ _).complete rfl phrase (stops_cons.mpr (stopped closing closed))).bind
    intro _
    apply (reads_symbol.mpr ⟨closing, rfl, closed⟩).bind
    exact fun _ => reads_pure.mpr ⟨rfl, rfl⟩

end Enclosing

section Chains
variable {Value : Type} {join : Token → Option (Value → Value → Value)}
  {Operand : List Token → Value → Prop} {goesOn : Token → Bool}

/-- Operands with operators between them, grouped from the left. -/
inductive Chained (join : Token → Option (Value → Value → Value))
    (Operand : List Token → Value → Prop) : List Token → Value → Prop
  | operand {tokens : List Token} {value : Value} (phrase : Operand tokens value) :
      Chained join Operand tokens value
  | more {left right : List Token} {sign : Token} {combine : Value → Value → Value}
      {first second : Value} (before : Chained join Operand left first)
      (joined : join sign = some combine) (after : Operand right second) :
      Chained join Operand (left ++ sign :: right) (combine first second)

/-- The operators and operands that turn one value into another, from left to right. -/
inductive Links (join : Token → Option (Value → Value → Value))
    (Operand : List Token → Value → Prop) : Value → List Token → Value → Prop
  | nil {value : Value} : Links join Operand value [] value
  | cons {right later : List Token} {sign : Token} {combine : Value → Value → Value}
      {first second value : Value} (joined : join sign = some combine)
      (operand : Operand right second)
      (more : Links join Operand (combine first second) later value) :
      Links join Operand first (sign :: (right ++ later)) value

/-- A chain can be continued by an operator and an operand at its end. -/
theorem Links.snoc {first second third : Value} {left right : List Token} {sign : Token}
    {combine : Value → Value → Value} (links : Links join Operand first left second)
    (joined : join sign = some combine) (operand : Operand right third) :
    Links join Operand first (left ++ sign :: right) (combine second third) := by
  induction links with
  | nil =>
      rw [List.nil_append, ← List.append_nil right]
      exact .cons joined operand .nil
  | cons before phrase _ ih =>
      rw [List.cons_append, List.append_assoc]
      exact .cons before phrase ih

/-- A chain extends by links. -/
theorem Links.chained {first value : Value} {left right : List Token}
    (links : Links join Operand first right value) (start : Chained join Operand left first) :
    Chained join Operand (left ++ right) value := by
  induction links generalizing left with
  | nil =>
      rw [List.append_nil]
      exact start
  | cons joined operand _ ih =>
      have extended := ih (start.more joined operand)
      rw [List.append_assoc, List.cons_append] at extended
      exact extended

/-- A chain is an operand and links. -/
theorem Chained.links {tokens : List Token} {value : Value}
    (chained : Chained join Operand tokens value) :
    ∃ read later first, tokens = read ++ later ∧ Operand read first ∧
      Links join Operand first later value := by
  induction chained with
  | operand phrase => exact ⟨_, [], _, (List.append_nil _).symm, phrase, .nil⟩
  | more _ joined after ih =>
      obtain ⟨read, later, first, rfl, phrase, links⟩ := ih
      exact ⟨read, _, first, List.append_assoc _ _ _, phrase, links.snoc joined after⟩

/-- No operand goes on at an operator. -/
def OperatorStops (join : Token → Option (Value → Value → Value)) (goesOn : Token → Bool) : Prop :=
  ∀ token combine, join token = some combine → goesOn token = false

/-- What follows an operand is another link or the end of the chain. -/
theorem Links.stops {first value : Value} {tokens rest : List Token}
    (links : Links join Operand first tokens value) (separated : OperatorStops join goesOn)
    (stopped : Stops goesOn rest) : Stops goesOn (tokens ++ rest) := by
  cases links with
  | nil => exact stopped
  | cons joined _ _ => exact stops_cons.mpr (separated _ _ joined)

/-- A chain goes on where an operand does, and at operators. -/
def chainGoesOn (join : Token → Option (Value → Value → Value)) (goesOn : Token → Bool)
    (token : Token) : Bool :=
  (join token).isSome || goesOn token

section Tail
variable {limit : Nat} {operand : Reader Value limit}

/-- A chain goes on with its next link. -/
theorem chainTail_link {later middle rest : List Token} {sign : Token}
    {combine : Value → Value → Value} {left right value : Value}
    {shorter : (sign :: later).length < limit} (joined : join sign = some combine)
    (read : Reads (operand later (Nat.le_of_lt (Nat.lt_of_succ_lt shorter))) right middle)
    (more : ∀ below, Reads (chainTail join limit operand (combine left right) middle below) value
      rest) :
    Reads (chainTail join limit operand left (sign :: later) shorter) value rest := by
  obtain ⟨_, done⟩ := read
  rw [chainTail]
  simp only [joined, done]
  exact more _

variable (each : ∀ inside within, Exact Operand goesOn inside (operand inside within))
include each

/-- The rest of a chain that is read is linked by operators. -/
theorem chainTail_sound {tokens rest : List Token} {left value : Value}
    {shorter : tokens.length < limit}
    (read : Reads (chainTail join limit operand left tokens shorter) value rest) :
    ∃ used, tokens = used ++ rest ∧ Links join Operand left used value := by
  fun_induction chainTail join limit operand left tokens shorter with
  | case1 left shorter _ =>
      obtain ⟨rfl, rfl⟩ := reads_ok.mp read
      exact ⟨[], rfl, .nil⟩
  | case2 left token later shorter ended _ =>
      obtain ⟨rfl, rfl⟩ := reads_ok.mp read
      exact ⟨[], rfl, .nil⟩
  | case3 left token later shorter combine joined failure failed _ => exact absurd read reads_error
  | case4 left token later shorter combine joined right found _ ih =>
      obtain ⟨used, whole, phrase⟩ := (each later _).sound ⟨right.shorter, found⟩
      obtain ⟨more, below, links⟩ := ih read
      refine ⟨token :: (used ++ more), ?_, .cons joined phrase links⟩
      rw [whole, below, List.cons_append, List.append_assoc]

/-- Operands that are linked by operators are read as the rest of a chain. -/
theorem chainTail_complete {used rest : List Token} {left value : Value}
    (separated : OperatorStops join goesOn) (links : Links join Operand left used value)
    (stopped : Stops (chainGoesOn join goesOn) rest) (shorter : (used ++ rest).length < limit) :
    Reads (chainTail join limit operand left (used ++ rest) shorter) value rest := by
  induction links with
  | nil =>
      rw [chainTail.eq_def]
      cases rest with
      | nil => exact reads_ok.mpr ⟨rfl, rfl⟩
      | cons token later =>
          have ended : join token = none := by
            simpa [chainGoesOn] using (Bool.or_eq_false_iff.mp (stops_cons.mp stopped)).1
          simp [ended]
  | cons joined phrase more ih =>
      have ends : Stops goesOn rest := fun token member =>
        (Bool.or_eq_false_iff.mp (stopped token member)).2
      exact chainTail_link joined ((each _ (Nat.le_of_lt (Nat.lt_of_succ_lt shorter))).complete
        (List.append_assoc _ _ _) phrase (more.stops separated ends)) ih

end Tail

/-- A reader of operands and operators is exact for chains. -/
theorem chain_exact {tokens : List Token} {operand : Reader Value tokens.length}
    (each : ∀ inside within, Exact Operand goesOn inside (operand inside within))
    (separated : OperatorStops join goesOn) :
    Exact (Chained join Operand) (chainGoesOn join goesOn) tokens (chain join tokens operand) where
  sound {value rest} read := by
    obtain ⟨first, middle, _, firstRead, read⟩ := reads_bind read
    obtain ⟨start, whole, phrase⟩ := (each _ _).sound firstRead
    obtain ⟨used, rfl, links⟩ := chainTail_sound each read
    exact ⟨start ++ used, by rw [whole, List.append_assoc], links.chained (.operand phrase)⟩
  complete {value read rest} whole chained stopped := by
    obtain ⟨start, used, first, rfl, phrase, links⟩ := chained.links
    have ends : Stops goesOn rest := fun token member =>
      (Bool.or_eq_false_iff.mp (stopped token member)).2
    rw [List.append_assoc] at whole
    apply ((each _ _).complete whole phrase (links.stops separated ends)).bind
    exact fun shorter => chainTail_complete each separated links stopped shorter

end Chains

end Grammar

end Cpl
