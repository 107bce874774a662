import Cpl.Lexeme

namespace Cpl

/-- Each character takes a byte or more. -/
theorem byteLength_cons_pos (character : Char) (rest : List Char) :
    0 < byteLength (character :: rest) := by
  rw [byteLength]
  exact Nat.lt_of_lt_of_le character.utf8Size_pos (Nat.le_add_right _ _)

/-- A text that is not empty takes a byte or more. -/
theorem byteLength_pos {text : List Char} (nonempty : text ≠ []) : 0 < byteLength text := by
  cases text with
  | nil => contradiction
  | cons character rest => exact byteLength_cons_pos character rest

namespace Piece

/-- A number that starts with a digit is not empty. -/
theorem number_nonempty {character : Char} (source : List Char) (digit : character.isDigit) :
    (number (character :: source)).text ≠ [] := by
  have whole : (character :: source).takeWhile Char.isDigit ≠ [] := by
    rw [List.takeWhile_cons_of_pos digit]
    exact List.cons_ne_nil _ _
  rw [number]
  split
  · dsimp only
    split
    · exact whole
    · simp
  · exact whole

/-- A piece has at least one character. -/
theorem first_nonempty (character : Char) (source : List Char) :
    (first character source).text ≠ [] := by
  rw [first]
  split
  · rename_i letter
    have alphanumeric : character.isAlphanum := by rw [Char.isAlphanum, letter, Bool.true_or]
    rw [word, List.takeWhile_cons_of_pos alphanumeric]
    exact List.cons_ne_nil _ _
  · split
    · rename_i symbol _
      cases symbol <;> simp [Symbol.spelling]
    · split
      · rename_i digit
        exact number_nonempty source digit
      · exact List.cons_ne_nil _ _

end Piece

/-- The place of a lexeme. -/
def Lexeme.span : Lexeme → Span
  | token found => found.span
  | fault error => error.span

/-- A lexeme stands where its piece does. -/
theorem Lexeme.ofPiece_span (piece : Piece) (span : Span) : (ofPiece piece span).span = span := by
  rw [ofPiece]
  split <;> rfl

/-- A comment ends after the place from which its end is looked for. -/
theorem closeComment?_after {position stop : Nat} {source rest : List Char}
    (closed : closeComment? position source = some (stop, rest)) : position ≤ stop := by
  fun_induction closeComment? position source with
  | case1 => cases closed
  | case2 => cases closed; exact Nat.le_add_right _ 2
  | case3 position character source _ ih => exact Nat.le_trans (Nat.le_add_right _ _) (ih closed)

/-- Lexemes that come one after the other from a position on, with a text each. -/
structure Ordered (position : Nat) (found : List Lexeme) : Prop where
  within : ∀ lexeme ∈ found, position ≤ lexeme.span.start
  nonempty : ∀ lexeme ∈ found, lexeme.span.start < lexeme.span.stop
  apart : found.Pairwise fun first second => first.span.stop ≤ second.span.start

theorem ordered_nil (position : Nat) : Ordered position [] where
  within := by simp
  nonempty := by simp
  apart := .nil

/-- Lexemes that are ordered from a position are ordered from each earlier one. -/
theorem Ordered.later {position stop : Nat} {found : List Lexeme} (ordered : Ordered stop found)
    (after : position ≤ stop) : Ordered position found where
  within lexeme member := Nat.le_trans after (ordered.within lexeme member)
  nonempty := ordered.nonempty
  apart := ordered.apart

/-- A lexeme before ordered lexemes is ordered with them. -/
theorem ordered_cons {position start stop : Nat} {lexeme : Lexeme} {found : List Lexeme}
    (place : lexeme.span = ⟨start, stop⟩) (after : position ≤ start) (nonempty : start < stop)
    (rest : Ordered stop found) : Ordered position (lexeme :: found) where
  within := by
    rw [List.forall_mem_cons, place]
    exact ⟨after, (rest.later (Nat.le_trans after (Nat.le_of_lt nonempty))).within⟩
  nonempty := by
    rw [List.forall_mem_cons, place]
    exact ⟨nonempty, rest.nonempty⟩
  apart := by
    rw [List.pairwise_cons, place]
    exact ⟨rest.within, rest.apart⟩

/-- Cutting gives lexemes in order. -/
theorem scan_ordered (position : Nat) (source : List Char) :
    Ordered position (scan position source) := by
  fun_induction scan position source with
  | case1 => exact ordered_nil _
  | case2 position body stop rest closed ih =>
      have after := closeComment?_after closed
      exact ih.later (by omega)
  | case3 position body unclosed =>
      exact ordered_cons rfl (Nat.le_refl _) (Nat.lt_add_of_pos_right (by decide)) (ordered_nil _)
  | case4 position character rest _ blank ih => exact ih.later (Nat.le_add_right _ _)
  | case5 position character rest _ visible piece stop ih =>
      have longer := byteLength_pos (Piece.first_nonempty character rest)
      exact ordered_cons (Lexeme.ofPiece_span _ _) (Nat.le_refl _) (Nat.lt_add_of_pos_right longer) ih

/-- Only tokens are tokens. -/
theorem Lexeme.token?_some {lexeme : Lexeme} {found : Token} :
    lexeme.token? = some found ↔ lexeme = .token found := by
  cases lexeme <;> simp [token?]

/-- A source has tokens if nothing in it is at fault. -/
theorem tokens_ok {source : String} {found : List Token} :
    tokens source = .ok found ↔ (lexemes source).filterMap Lexeme.error? = [] ∧
      (lexemes source).filterMap Lexeme.token? = found := by
  rw [tokens]
  cases (lexemes source).filterMap Lexeme.error? with
  | nil => simp
  | cons error later => simp

/-- The tokens of a source are in the order of their places. -/
theorem tokens_increasing {source : String} {found : List Token} (cut : tokens source = .ok found) :
    found.Pairwise fun first second => first.span.start < second.span.start := by
  obtain ⟨_, rfl⟩ := tokens_ok.mp cut
  have ordered := scan_ordered 0 source.toList
  rw [List.pairwise_filterMap]
  apply ordered.apart.imp_of_mem
  intro first second member _ apart token isToken other isOther
  have nonempty := ordered.nonempty first member
  rw [Lexeme.token?_some] at isToken isOther
  rw [isToken] at nonempty apart
  rw [isOther] at apart
  exact Nat.lt_of_lt_of_le nonempty apart

end Cpl
