import Cpl.Proofs.Grammar.Readers
import Mathlib.Computability.Language

open Computability

namespace Cpl

namespace Grammar

/-- A word of the language starts with the tokens. -/
def Viable (words : Language Token) (tokens : List Token) : Prop :=
  ∃ more, tokens ++ more ∈ words

/-- No word starts with the tokens and the token after them, nor ends within them before a token
that does not go on. -/
def Blocks (words : Language Token) (goesOn : Token → Bool) (before : List Token)
    (token : Token) : Prop :=
  ∀ ⦃more read rest⦄, before ++ token :: more = read ++ rest → read ∈ words → ¬Stops goesOn rest

/-- Tokens are not read as a word because they end too early, or because of one of them. -/
def Stuck (words : Language Token) (goesOn : Token → Bool) (tokens : List Token) :
    Option Token → Prop
  | none => Viable words tokens
  | some token => ∃ before after, tokens = before ++ token :: after ∧ Viable words before ∧
      Blocks words goesOn before token

/-- Whatever follows the first token of the rest, the tokens used are the one word that they start
with and that ends before a token that does not go on. -/
def Settled (words : Language Token) (goesOn : Token → Bool) (used rest : List Token) : Prop :=
  ∀ ⦃other word later⦄, other.head? = rest.head? → word ∈ words → Stops goesOn later →
    used ++ other = word ++ later → used = word

/-- Words with a token that does not go on after them stop what goes on before them. -/
def Follows (words : Language Token) (goesOn outer : Token → Bool) : Prop :=
  ∀ ⦃later rest⦄, later ∈ words → Stops outer rest → Stops goesOn (later ++ rest)

/-- Each word starts with a token of some kind. -/
def StartsWith (words : Language Token) (accepts : Token → Prop) : Prop :=
  ∀ word ∈ words, ∃ token more, word = token :: more ∧ accepts token

section Languages
variable {first second : Language Token} {inner outer : Token → Bool} {tokens : List Token}
  {found : Option Token}

/-- The start of a word is the start of two words, if there is a second one. -/
theorem Viable.mul (start : Viable first tokens) (finish : Viable second []) :
    Viable (first * second) tokens := by
  obtain ⟨more, word⟩ := start
  obtain ⟨later, next⟩ := finish
  refine ⟨more ++ later, ?_⟩
  rw [← List.append_assoc]
  exact Language.append_mem_mul word next

/-- The start of a word is one in each larger language. -/
theorem Viable.mono (viable : Viable first tokens) (included : ∀ word ∈ first, word ∈ second) :
    Viable second tokens := by
  obtain ⟨more, word⟩ := viable
  exact ⟨more, included _ word⟩

/-- The first token of a list does not depend on more than the first token of its end. -/
theorem head?_append_congr {start rest other : List Token} (same : other.head? = rest.head?) :
    (start ++ other).head? = (start ++ rest).head? := by
  rw [List.head?_append, List.head?_append, same]

/-- The tokens after a token have no effect on the first one. -/
theorem head?_replaced (before after more : List Token) (token : Token) :
    (before ++ token :: more).head? = (before ++ token :: after).head? :=
  head?_append_congr rfl

/-- All words stop what goes on with no token. -/
theorem follows_never (words : Language Token) (outer : Token → Bool) :
    Follows words never outer := fun _ _ _ _ => stops_never _

/-- Words that start with stopping tokens stop what goes on before them. -/
theorem StartsWith.follows {accepts : Token → Prop} (starts : StartsWith second accepts)
    (stopped : ∀ token, accepts token → inner token = false) : Follows second inner outer := by
  intro later rest word _
  obtain ⟨token, more, rfl, accepted⟩ := starts later word
  exact stops_cons.mpr (stopped token accepted)

/-- Two words start like the first of them. -/
theorem StartsWith.mul {accepts : Token → Prop} (starts : StartsWith first accepts) :
    StartsWith (first * second) accepts := by
  intro word member
  obtain ⟨start, isFirst, later, _, rfl⟩ := Language.mem_mul.mp member
  obtain ⟨token, more, rfl, accepted⟩ := starts start isFirst
  exact ⟨token, more ++ later, rfl, accepted⟩

/-- Words that start with a token are not empty. -/
theorem StartsWith.nonempty {accepts : Token → Prop} (starts : StartsWith first accepts) :
    [] ∉ first := by
  intro empty
  obtain ⟨_, _, impossible, _⟩ := starts [] empty
  cases impossible

/-- Two words are settled if each of them is. -/
theorem Settled.mul {used more rest : List Token} (start : Settled first inner used (more ++ rest))
    (finish : Settled second outer more rest) (follows : Follows second inner outer) :
    Settled (first * second) outer (used ++ more) rest := by
  intro other word later sameHead member stopped same
  obtain ⟨one, isFirst, two, isSecond, rfl⟩ := Language.mem_mul.mp member
  rw [List.append_assoc, List.append_assoc] at same
  have begins : used = one :=
    start (head?_append_congr sameHead) isFirst (follows isSecond stopped) same
  subst begins
  rw [finish sameHead isSecond stopped (List.append_cancel_left same)]

/-- Tokens at which the first of two words is stuck. -/
theorem Stuck.inFirst (stuck : Stuck first inner tokens found) (follows : Follows second inner outer)
    (finish : Viable second []) : Stuck (first * second) outer tokens found := by
  cases found with
  | none => exact Viable.mul stuck finish
  | some token =>
      obtain ⟨before, after, whole, viable, blocks⟩ := stuck
      refine ⟨before, after, whole, viable.mul finish, ?_⟩
      intro more read rest same word stopped
      obtain ⟨start, isFirst, later, isSecond, rfl⟩ := Language.mem_mul.mp word
      rw [List.append_assoc] at same
      exact blocks same isFirst (follows isSecond stopped)

/-- Tokens at which the second of two words is stuck, after the first has been read. -/
theorem Stuck.inSecond {used rest : List Token} (read : used ∈ first)
    (settled : Settled first inner used rest) (follows : Follows second inner outer)
    (stuck : Stuck second outer rest found) : Stuck (first * second) outer (used ++ rest) found := by
  cases found with
  | none =>
      obtain ⟨more, word⟩ := stuck
      refine ⟨more, ?_⟩
      rw [List.append_assoc]
      exact Language.append_mem_mul read word
  | some token =>
      obtain ⟨before, after, rfl, ⟨finish, word⟩, blocks⟩ := stuck
      refine ⟨used ++ before, after, (List.append_assoc _ _ _).symm, ⟨finish, ?_⟩, ?_⟩
      · rw [List.append_assoc]
        exact Language.append_mem_mul read word
      · -- A word with the token in it starts with the same first word, so it fails in the second.
        intro more other rest same word stopped
        obtain ⟨start, isFirst, later, isSecond, rfl⟩ := Language.mem_mul.mp word
        rw [List.append_assoc, List.append_assoc] at same
        have begins : used = start :=
          settled (head?_replaced _ _ _ _) isFirst (follows isSecond stopped) same
        subst begins
        exact blocks (List.append_cancel_left same) isSecond stopped

/-- Only those words count that start with the first of the tokens. -/
theorem mem_ofHead {token : Token} {whole word later : List Token}
    (all : ∀ more, token :: more ∈ second → token :: more ∈ first)
    (empty : [] ∈ second → outer token = true) (starts : whole.head? = some token)
    (same : whole = word ++ later) (member : word ∈ second) (stopped : Stops outer later) :
    word ∈ first := by
  subst same
  cases word with
  | nil => exact absurd (empty member) (by rw [stopped token starts]; decide)
  | cons start more =>
      cases starts
      exact all more member

/-- Tokens are stuck in a larger language that has the same words from the first token on. -/
theorem Stuck.ofHead {token : Token} {rest : List Token}
    (stuck : Stuck first outer (token :: rest) found) (included : ∀ word ∈ first, word ∈ second)
    (all : ∀ more, token :: more ∈ second → token :: more ∈ first)
    (empty : [] ∈ second → outer token = true) : Stuck second outer (token :: rest) found := by
  cases found with
  | none => exact Viable.mono stuck included
  | some fault =>
      obtain ⟨before, after, whole, viable, blocks⟩ := stuck
      refine ⟨before, after, whole, viable.mono included, ?_⟩
      intro more read rest same word stopped
      have starts : (before ++ fault :: more).head? = some token := by
        rw [head?_replaced before after, ← whole, List.head?_cons]
      exact blocks same (mem_ofHead all empty starts same word stopped) stopped

/-- A word is settled in a larger language that has the same words from the first token on. -/
theorem Settled.ofHead {token : Token} {used rest : List Token}
    (settled : Settled first outer used rest) (starts : (used ++ rest).head? = some token)
    (all : ∀ more, token :: more ∈ second → token :: more ∈ first)
    (empty : [] ∈ second → outer token = true) : Settled second outer used rest := by
  intro other word later sameHead member stopped same
  have begins : (used ++ other).head? = some token := by rw [head?_append_congr sameHead, starts]
  exact settled sameHead (mem_ofHead all empty begins same member stopped) stopped same

/-- A word is stuck as well where fewer tokens end it. -/
theorem Stuck.mono (stuck : Stuck first inner tokens found)
    (fewer : ∀ rest, Stops outer rest → Stops inner rest) : Stuck first outer tokens found := by
  cases found with
  | none => exact stuck
  | some token =>
      obtain ⟨before, after, whole, viable, blocks⟩ := stuck
      exact ⟨before, after, whole, viable, fun _ _ rest same word stopped =>
        blocks same word (fewer rest stopped)⟩

/-- No word starts with the token. -/
theorem stuck_start {token : Token} {rest : List Token} {accepts : Token → Prop}
    (some : Viable first []) (starts : StartsWith first accepts) (rejected : ¬accepts token) :
    Stuck first outer (token :: rest) (.some token) := by
  refine ⟨[], rest, rfl, some, ?_⟩
  intro more read later same word _
  obtain ⟨start, others, rfl, accepted⟩ := starts read word
  obtain ⟨rfl, _⟩ := List.cons.inj same
  exact rejected accepted

end Languages

/-- A reader settles on a word if it succeeds, and is stuck where it fails. -/
structure Pinpoints {Value : Type} {limit : Nat} (words : Language Token) (goesOn : Token → Bool)
    (tokens : List Token) (outcome : Outcome Value limit) : Prop where
  reads {value : Value} {rest : List Token} : Reads outcome value rest →
    ∃ used ∈ words, tokens = used ++ rest ∧ Settled words goesOn used rest
  fails {failure : Failure} : outcome = .error failure → Stuck words goesOn tokens failure.found

section Readers
variable {First Second : Type} {limit other : Nat} {first second : Language Token}
  {inner outer : Token → Bool} {tokens : List Token}

/-- A reader that settles on a word pinpoints faults. -/
theorem pinpoints_ok {value : First} {rest used : List Token} {shorter : rest.length < limit}
    (whole : tokens = used ++ rest) (word : used ∈ first) (settled : Settled first outer used rest) :
    Pinpoints first outer tokens (.ok ⟨value, rest, shorter⟩ : Outcome First limit) where
  reads read := by
    obtain ⟨rfl, rfl⟩ := reads_ok.mp read
    exact ⟨used, word, whole, settled⟩
  fails failed := by cases failed

/-- A reader that reads nothing. -/
theorem pinpoints_one {value : First} (outer : Token → Bool) (tokens : List Token)
    (shorter : tokens.length < limit) :
    Pinpoints 1 outer tokens (.ok ⟨value, tokens, shorter⟩ : Outcome First limit) :=
  pinpoints_ok rfl rfl fun _ _ _ _ empty _ _ => empty.symm

/-- A reader that fails where it is stuck pinpoints faults. -/
theorem pinpoints_error {failure : Failure} (stuck : Stuck first outer tokens failure.found) :
    Pinpoints first outer tokens (.error failure : Outcome First limit) where
  reads read := absurd read reads_error
  fails failed := by
    cases failed
    exact stuck

/-- What is made of a value that was read. -/
theorem Pinpoints.ok {outcome : Outcome First limit} {parsed : Parsed First limit}
    {shorter : parsed.rest.length < other} (start : Pinpoints first outer tokens outcome)
    (done : outcome = .ok parsed) (value : Second) :
    Pinpoints first outer tokens (.ok ⟨value, parsed.rest, shorter⟩ : Outcome Second other) := by
  obtain ⟨used, word, whole, settled⟩ := start.reads ⟨parsed.shorter, done⟩
  exact pinpoints_ok whole word settled

/-- A failure that is passed on. -/
theorem Pinpoints.error {outcome : Outcome First limit} {failure : Failure}
    (start : Pinpoints first outer tokens outcome) (done : outcome = .error failure) :
    Pinpoints first outer tokens (.error failure : Outcome Second other) :=
  pinpoints_error (start.fails done)

/-- A reader that only makes something of what another reads. -/
theorem Pinpoints.map {outcome : Outcome First limit} (start : Pinpoints first outer tokens outcome)
    (make : First → Second) {below : ∀ parsed : Parsed First limit, parsed.rest.length < other} :
    Pinpoints first outer tokens (outcome >>= fun parsed =>
      (pure ⟨make parsed.value, parsed.rest, below parsed⟩ : Outcome Second other)) := by
  cases done : outcome with
  | error failure => exact start.error done
  | ok parsed => exact start.ok done (make parsed.value)

section Sequence
variable {outcome : Outcome First limit} (start : Pinpoints first inner tokens outcome)
  (follows : Follows second inner outer)
include start follows

/-- What follows a word that was read is a word as well. -/
theorem Pinpoints.after {parsed : Parsed First limit} {result : Outcome Second other}
    (done : outcome = .ok parsed) (later : Pinpoints second outer parsed.rest result) :
    Pinpoints (first * second) outer tokens result := by
  obtain ⟨used, word, whole, settled⟩ := start.reads ⟨parsed.shorter, done⟩
  constructor
  · intro value rest read
    obtain ⟨more, next, same, ends⟩ := later.reads read
    rw [same] at settled
    exact ⟨used ++ more, Language.append_mem_mul word next, by rw [whole, same, List.append_assoc],
      settled.mul ends follows⟩
  · intro failure failed
    rw [whole]
    exact (later.fails failed).inSecond word settled follows

/-- The first of two words is not read. -/
theorem Pinpoints.before {failure : Failure} (finish : Viable second [])
    (done : outcome = .error failure) :
    Pinpoints (first * second) outer tokens (.error failure : Outcome Second other) :=
  pinpoints_error ((start.fails done).inFirst follows finish)

/-- A reader that goes on after another pinpoints faults in either of them. -/
theorem Pinpoints.bind {next : Parsed First limit → Outcome Second other}
    (finish : Viable second [])
    (later : ∀ parsed, Pinpoints second outer parsed.rest (next parsed)) :
    Pinpoints (first * second) outer tokens (outcome >>= next) := by
  cases done : outcome with
  | error failure => exact start.before follows finish done
  | ok parsed => exact start.after follows done (later parsed)

end Sequence

/-- A word that goes on at fewer tokens. -/
theorem Pinpoints.mono {outcome : Outcome First limit} (start : Pinpoints first inner tokens outcome)
    (fewer : ∀ rest, Stops outer rest → Stops inner rest) :
    Pinpoints first outer tokens outcome where
  reads read := by
    obtain ⟨used, word, whole, settled⟩ := start.reads read
    exact ⟨used, word, whole, fun _ _ later sameHead member stopped =>
      settled sameHead member (fewer later stopped)⟩
  fails failed := (start.fails failed).mono fewer

/-- A reader that looks at the first token, and reads a word that starts with it. -/
theorem Pinpoints.ofHead {token : Token} {rest : List Token} {outcome : Outcome First limit}
    (start : Pinpoints first outer (token :: rest) outcome)
    (included : ∀ word ∈ first, word ∈ second)
    (all : ∀ more, token :: more ∈ second → token :: more ∈ first)
    (empty : [] ∈ second → outer token = true) :
    Pinpoints second outer (token :: rest) outcome where
  reads read := by
    obtain ⟨used, word, whole, settled⟩ := start.reads read
    exact ⟨used, included _ word, whole, settled.ofHead (by rw [← whole, List.head?_cons]) all empty⟩
  fails failed := (start.fails failed).ofHead included all empty

/-- A reader that goes on after the first token. -/
theorem Pinpoints.cons {token : Token} {rest : List Token} {outcome : Outcome First limit}
    (start : Pinpoints first outer rest outcome)
    (same : ∀ more, token :: more ∈ second ↔ more ∈ first)
    (empty : [] ∈ second → outer token = true) :
    Pinpoints second outer (token :: rest) outcome := by
  let alone : Language Token := {[token]}
  have begins : [token] ∈ alone := rfl
  have settled (rest : List Token) : Settled alone never [token] rest :=
    fun _ _ _ _ member _ _ => member.symm
  have follows := follows_never first outer
  have whole : Pinpoints (alone * first) outer (token :: rest) outcome := by
    constructor
    · intro value left read
      obtain ⟨used, word, whole, ends⟩ := start.reads read
      exact ⟨token :: used, Language.append_mem_mul begins word, by rw [whole, List.cons_append],
        (settled _).mul ends follows⟩
    · intro failure failed
      exact (start.fails failed).inSecond begins (settled rest) follows
  apply whole.ofHead _ _ empty
  · intro word member
    obtain ⟨_, rfl, later, isLater, rfl⟩ := Language.mem_mul.mp member
    exact (same later).mpr isLater
  · intro more member
    exact Language.append_mem_mul begins ((same more).mp member)

/-- The words of one token. -/
def only (accepts : Token → Prop) : Language Token :=
  {tokens | ∃ token, accepts token ∧ tokens = [token]}

/-- Words of one token start with it. -/
theorem only_startsWith (accepts : Token → Prop) : StartsWith (only accepts) accepts := by
  rintro _ ⟨token, accepted, rfl⟩
  exact ⟨token, [], rfl, accepted⟩

/-- A word after one token is what is left without it. -/
theorem cons_mem_only_mul {accepts : Token → Prop} {token : Token} {more : List Token} :
    token :: more ∈ only accepts * first ↔ accepts token ∧ more ∈ first := by
  constructor
  · intro member
    obtain ⟨_, ⟨start, accepted, rfl⟩, later, isLater, same⟩ := Language.mem_mul.mp member
    obtain ⟨rfl, rfl⟩ := List.cons.inj same
    exact ⟨accepted, isLater⟩
  · rintro ⟨accepted, isLater⟩
    have start : [token] ∈ only accepts := ⟨token, accepted, rfl⟩
    exact Language.append_mem_mul start isLater

/-- A word with one token after it ends with the token. -/
theorem mem_mul_only {accepts : Token → Prop} :
    tokens ∈ first * only accepts ↔ ∃ word ∈ first, ∃ token, accepts token ∧
      tokens = word ++ [token] := by
  constructor
  · intro member
    obtain ⟨word, isFirst, _, ⟨token, accepted, rfl⟩, rfl⟩ := Language.mem_mul.mp member
    exact ⟨word, isFirst, token, accepted, rfl⟩
  · rintro ⟨word, isFirst, token, accepted, rfl⟩
    exact Language.append_mem_mul isFirst ⟨token, accepted, rfl⟩

/-- Words of one token are settled. -/
theorem only_settled {accepts : Token → Prop} (token : Token) (rest : List Token) :
    Settled (only accepts) outer [token] rest := by
  rintro other _ later _ ⟨start, _, rfl⟩ _ same
  rw [(List.cons.inj same).1]

theorem only_viable {accepts : Token → Prop} (token : Token) (accepted : accepts token) :
    Viable (only accepts) [] := ⟨[token], token, accepted, rfl⟩

/-- A reader of one token pinpoints faults. -/
theorem single_pinpoints {stage : Stage} {read : Token → Option First} {accepts : Token → Prop}
    (same : ∀ token, accepts token ↔ ∃ value, read token = some value)
    (some : Viable (only accepts) []) :
    Pinpoints (only accepts) never tokens (single stage read tokens) := by
  cases tokens with
  | nil => exact pinpoints_error some
  | cons start rest =>
      rw [single]
      cases found : read start with
      | some value =>
          exact pinpoints_ok rfl ⟨start, (same start).mpr ⟨value, found⟩, rfl⟩ (only_settled start rest)
      | none =>
          apply pinpoints_error
          apply stuck_start some (only_startsWith accepts)
          intro accepted
          obtain ⟨value, isRead⟩ := (same start).mp accepted
          cases found.symm.trans isRead

end Readers

section Tokens
variable {tokens : List Token}

/-- The words that are a symbol. -/
def symbolWord (mark : Symbol) : Language Token := only fun token => token.kind = .symbol mark

/-- The words that are a keyword. -/
def keywordWord (word : Keyword) : Language Token := only fun token => token.kind = .keyword word

/-- The words that are a name. -/
def nameWord : Language Token := only fun token => ∃ name, token.kind = .identifier name

theorem symbolWord_viable (mark : Symbol) : Viable (symbolWord mark) [] :=
  only_viable ⟨.symbol mark, .point 0⟩ rfl

theorem keywordWord_viable (word : Keyword) : Viable (keywordWord word) [] :=
  only_viable ⟨.keyword word, .point 0⟩ rfl

theorem nameWord_viable : Viable nameWord [] :=
  only_viable ⟨.identifier "", .point 0⟩ ⟨"", rfl⟩

/-- Readers of symbols pinpoint faults. -/
theorem symbol_pinpoints (mark : Symbol) (stage : Stage) :
    Pinpoints (symbolWord mark) never tokens (symbol mark stage tokens) :=
  single_pinpoints (fun token => by simp) (symbolWord_viable mark)

/-- Readers of keywords pinpoint faults. -/
theorem keyword_pinpoints (word : Keyword) (stage : Stage) :
    Pinpoints (keywordWord word) never tokens (keyword word stage tokens) :=
  single_pinpoints (fun token => by simp) (keywordWord_viable word)

/-- Readers of names pinpoint faults. -/
theorem identifier_pinpoints (stage : Stage) :
    Pinpoints nameWord never tokens (identifier stage tokens) :=
  single_pinpoints (fun token => by simp [ident?_some]) nameWord_viable

end Tokens

section Phrases
variable {Value : Type} {Phrase : List Token → Value → Prop}

/-- The tokens that spell something. -/
def spelled (Phrase : List Token → Value → Prop) : Language Token :=
  {tokens | ∃ value, Phrase tokens value}

theorem mem_spelled {tokens : List Token} {value : Value} (phrase : Phrase tokens value) :
    tokens ∈ spelled Phrase := ⟨value, phrase⟩

/-- Phrases with the same tokens have the same words. -/
theorem spelled_congr {Other : List Token → Value → Prop}
    (same : ∀ tokens value, Phrase tokens value ↔ Other tokens value) :
    spelled Phrase = spelled Other := by
  ext tokens
  exact exists_congr (same tokens)

/-- Words that follow each other are the tokens of parts that spell something. -/
theorem mem_kstar_spelled {tokens : List Token} :
    tokens ∈ (spelled Phrase)∗ ↔ ∃ parts : List (List Token × Value),
      (∀ part ∈ parts, Phrase part.1 part.2) ∧ tokens = (parts.map Prod.fst).flatten := by
  constructor
  · rintro ⟨words, rfl, each⟩
    induction words with
    | nil => exact ⟨[], by simp, rfl⟩
    | cons word words ih =>
        obtain ⟨⟨value, phrase⟩, others⟩ := List.forall_mem_cons.mp each
        obtain ⟨parts, phrases, same⟩ := ih others
        exact ⟨(word, value) :: parts, List.forall_mem_cons.mpr ⟨phrase, phrases⟩, by simp [same]⟩
  · rintro ⟨parts, each, rfl⟩
    apply Language.join_mem_kstar
    intro word member
    obtain ⟨part, isPart, rfl⟩ := List.mem_map.mp member
    exact ⟨part.2, each part isPart⟩

end Phrases

section Repetition
variable {words last : Language Token}

/-- Repeated words before a last one are the last one alone, or one more word before such words. -/
theorem kstar_mul_eq (words last : Language Token) :
    words∗ * last = last + words * (words∗ * last) := by
  nth_rewrite 1 [← Language.one_add_self_mul_kstar_eq_kstar]
  rw [add_mul, one_mul, mul_assoc]

/-- One more word can stand before repeated words. -/
theorem kstar_mul_more : ∀ word ∈ words * (words∗ * last), word ∈ words∗ * last := by
  intro word member
  rw [kstar_mul_eq]
  exact .inr member

/-- No word needs to be repeated. -/
theorem kstar_mul_last : ∀ word ∈ last, word ∈ words∗ * last := by
  intro word member
  rw [kstar_mul_eq]
  exact .inl member

end Repetition

section Enclosing
variable {Value : Type} {goesOn : Token → Bool} {words : Language Token} {tokens : List Token}

/-- Words between parentheses. -/
def inParens (words : Language Token) : Language Token :=
  symbolWord .openParen * (words * symbolWord .closeParen)

/-- Words in parentheses have one parenthesis before them and one after them. -/
theorem mem_inParens :
    tokens ∈ inParens words ↔ ∃ opening inner closing, opening.kind = .symbol .openParen ∧
      inner ∈ words ∧ closing.kind = .symbol .closeParen ∧ tokens = opening :: (inner ++ [closing]) := by
  constructor
  · intro member
    obtain ⟨_, ⟨opening, opened, rfl⟩, _, inside, rfl⟩ := Language.mem_mul.mp member
    obtain ⟨inner, word, closing, closed, rfl⟩ := mem_mul_only.mp inside
    exact ⟨opening, inner, closing, opened, word, closed, rfl⟩
  · rintro ⟨opening, inner, closing, opened, word, closed, rfl⟩
    exact cons_mem_only_mul.mpr ⟨opened, mem_mul_only.mpr ⟨inner, word, closing, closed, rfl⟩⟩

/-- Parentheses around words pinpoint faults if they stop what is in them. -/
theorem enclosed_pinpoints {stage : Stage} {content : Reader Value tokens.length}
    (each : ∀ inside within, Pinpoints words goesOn inside (content inside within))
    (stopped : ParenStops goesOn) (some : Viable words []) :
    Pinpoints (inParens words) never tokens (enclosed stage tokens content) := by
  have closing := symbolWord_viable .closeParen
  apply (symbol_pinpoints .openParen stage).bind (follows_never _ _) (some.mul closing)
  intro opening
  apply (each opening.rest _).bind ((only_startsWith _).follows stopped) closing
  intro inside
  exact (symbol_pinpoints .closeParen stage).map fun _ => inside.value

end Enclosing

/-- Separators, each with a word after it. -/
def links (separates : Token → Prop) (words : Language Token) : Language Token :=
  (only separates * words)∗

/-- Words with separators between them. -/
def linkedWords (separates : Token → Prop) (words : Language Token) : Language Token :=
  words * links separates words

section Links
variable {separates : Token → Prop} {words : Language Token} {goesOn outer : Token → Bool}

/-- There is no link, or a separator with a linked word after it. -/
theorem links_eq (separates : Token → Prop) (words : Language Token) :
    links separates words = 1 + only separates * linkedWords separates words := by
  rw [linkedWords, ← mul_assoc]
  exact (Language.one_add_self_mul_kstar_eq_kstar _).symm

/-- After a separator, links go on with a word and more links. -/
theorem links_cons {token : Token} (separated : separates token) (more : List Token) :
    token :: more ∈ links separates words ↔ more ∈ linkedWords separates words := by
  rw [links_eq]
  constructor
  · rintro (empty | member)
    · cases empty
    · exact (cons_mem_only_mul.mp member).2
  · exact fun member => .inr (cons_mem_only_mul.mpr ⟨separated, member⟩)

theorem links_nil : [] ∈ links separates words := Language.nil_mem_kstar _

theorem links_viable : Viable (links separates words) [] := ⟨[], links_nil⟩

/-- There are linked words if there are words. -/
theorem linkedWords_viable (some : Viable words []) : Viable (linkedWords separates words) [] :=
  some.mul links_viable

/-- Links end where no separator follows. -/
theorem links_settled {rest : List Token} (ended : ∀ token ∈ rest.head?, ¬separates token) :
    Settled (links separates words) outer [] rest := by
  intro other word later sameHead member _ same
  rw [links_eq] at member
  obtain empty | member := member
  · exact empty.symm
  · obtain ⟨_, ⟨sign, separated, rfl⟩, _, _, rfl⟩ := Language.mem_mul.mp member
    have follows : rest.head? = some sign := by
      rw [← sameHead, ← List.nil_append other, same]
      rfl
    exact absurd separated (ended sign follows)

/-- Separators that stop a word stop it in all links. -/
theorem follows_links (stopped : ∀ token, separates token → goesOn token = false)
    (fewer : ∀ rest, Stops outer rest → Stops goesOn rest) :
    Follows (links separates words) goesOn outer := by
  intro later rest member ends
  rw [links_eq] at member
  obtain empty | member := member
  · cases empty
    exact fewer rest ends
  · obtain ⟨_, ⟨sign, separated, rfl⟩, _, _, rfl⟩ := Language.mem_mul.mp member
    exact stops_cons.mpr (stopped sign separated)

end Links

section Chains
variable {Value : Type} {join : Token → Option (Value → Value → Value)} {goesOn : Token → Bool}
  {words : Language Token}

/-- A token is an operator. -/
def isOperator (join : Token → Option (Value → Value → Value)) (token : Token) : Prop :=
  ∃ combine, join token = some combine

/-- Words with operators between them. -/
abbrev chainWords (join : Token → Option (Value → Value → Value)) (words : Language Token) :
    Language Token :=
  linkedWords (isOperator join) words

section Operands
variable (separated : OperatorStops join goesOn)
include separated

/-- Operators stop operands. -/
theorem follows_operands :
    Follows (links (isOperator join) words) goesOn (chainGoesOn join goesOn) := by
  apply follows_links
  · rintro token ⟨combine, joined⟩
    exact separated token combine joined
  · exact fun rest stopped token first => (Bool.or_eq_false_iff.mp (stopped token first)).2

/-- The rest of a chain pinpoints faults if its operands do. -/
theorem chainTail_pinpoints {limit : Nat} {operand : Reader Value limit} {tokens : List Token}
    {left : Value} {shorter : tokens.length < limit}
    (each : ∀ inside within, Pinpoints words goesOn inside (operand inside within)) :
    Pinpoints (links (isOperator join) words) (chainGoesOn join goesOn) tokens
      (chainTail join limit operand left tokens shorter) := by
  have goes {token : Token} {combine : Value → Value → Value} (joined : join token = some combine) :
      chainGoesOn join goesOn token = true := by simp [chainGoesOn, joined]
  fun_induction chainTail join limit operand left tokens shorter with
  | case1 => exact pinpoints_ok rfl links_nil (links_settled (by simp))
  | case2 left token later shorter ended =>
      exact pinpoints_ok rfl links_nil (links_settled (by simp [isOperator, ended]))
  | case3 left token later shorter combine joined failure failed =>
      exact ((each later _).before (follows_operands separated) links_viable failed).cons
        (links_cons ⟨combine, joined⟩) fun _ => goes joined
  | case4 left token later shorter combine joined right found _ ih =>
      exact ((each later _).after (follows_operands separated) found ih).cons
        (links_cons ⟨combine, joined⟩) fun _ => goes joined

/-- A reader of operands and operators pinpoints faults in chains. -/
theorem chain_pinpoints {tokens : List Token} {operand : Reader Value tokens.length}
    (each : ∀ inside within, Pinpoints words goesOn inside (operand inside within)) :
    Pinpoints (chainWords join words) (chainGoesOn join goesOn) tokens (chain join tokens operand) :=
  (each tokens _).bind (follows_operands separated) links_viable fun _ =>
    chainTail_pinpoints separated each

end Operands

variable {Operand : List Token → Value → Prop}

/-- The operands of a chain are linked by its operators. -/
theorem Links.inWords {first value : Value} {tokens : List Token}
    (chained : Links join Operand first tokens value) :
    tokens ∈ links (isOperator join) (spelled Operand) := by
  induction chained with
  | nil => exact links_nil
  | cons joined operand _ ih =>
      exact (links_cons ⟨_, joined⟩ _).mpr (Language.append_mem_mul ⟨_, operand⟩ ih)

/-- A chain can be continued by operators with operands after them. -/
theorem chained_more {value : Value} {start : List Token} {parts : List (List Token)}
    (before : Chained join Operand start value)
    (each : ∀ part ∈ parts, part ∈ only (isOperator join) * spelled Operand) :
    start ++ parts.flatten ∈ spelled (Chained join Operand) := by
  induction parts generalizing start value with
  | nil =>
      rw [List.flatten_nil, List.append_nil]
      exact ⟨value, before⟩
  | cons part parts ih =>
      obtain ⟨member, others⟩ := List.forall_mem_cons.mp each
      obtain ⟨_, ⟨sign, ⟨combine, joined⟩, rfl⟩, right, ⟨second, after⟩, rfl⟩ :=
        Language.mem_mul.mp member
      have longer := ih (before.more joined after) others
      rwa [List.append_assoc] at longer

/-- Chains are words with operators between them. -/
theorem spelled_chained : spelled (Chained join Operand) = chainWords join (spelled Operand) := by
  ext tokens
  constructor
  · rintro ⟨value, chained⟩
    obtain ⟨read, later, first, rfl, operand, more⟩ := chained.links
    exact Language.append_mem_mul ⟨first, operand⟩ more.inWords
  · intro member
    obtain ⟨read, ⟨first, operand⟩, _, ⟨parts, rfl, each⟩, rfl⟩ := Language.mem_mul.mp member
    exact chained_more (.operand operand) each

end Chains

end Grammar

end Cpl
