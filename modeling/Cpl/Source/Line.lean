/-
The lines of a source text, and the line that holds a byte position.
A line ends after a line feed, or after a carriage return that no line feed follows.
-/

import Cpl.Source.Span

namespace Cpl

/-- A line with its ending, counted from 1. -/
structure Line where
  number : Nat
  span : Span
  characters : List Char
deriving DecidableEq

namespace Line

/-- Splits off the first line. The characters read so far stand in reverse order. There is
nothing after a line that the end of the source closes. -/
def split (read : List Char) : List Char → List Char × Option (List Char)
  | [] => (read.reverse, none)
  | '\n' :: rest => (('\n' :: read).reverse, some rest)
  | '\r' :: rest =>
      if rest.head? = some '\n' then split ('\r' :: read) rest
      else (('\r' :: read).reverse, some rest)
  | character :: rest => split (character :: read) rest

theorem splitRestLength (source read first rest : List Char)
    (equation : split read source = (first, some rest)) : rest.length < source.length := by
  fun_induction split read source with
  | case1 => cases equation
  | case2 =>
      cases equation
      exact Nat.lt_add_one _
  | case3 read rest _ inductionHypothesis =>
      exact Nat.lt_succ_of_lt (inductionHypothesis equation)
  | case4 =>
      cases equation
      exact Nat.lt_add_one _
  | case5 read character rest _ _ inductionHypothesis =>
      exact Nat.lt_succ_of_lt (inductionHypothesis equation)

/-- The lines of a source that starts at a line number and a byte position. There is always a
last line, which may be empty. -/
def linesFrom (number position : Nat) (source : List Char) : List Line :=
  match equation : split [] source with
  | (first, none) => [⟨number, ⟨position, position + byteLength first⟩, first⟩]
  | (first, some rest) =>
      let stop := position + byteLength first
      ⟨number, ⟨position, stop⟩, first⟩ :: linesFrom (number + 1) stop rest
termination_by source.length
decreasing_by exact splitRestLength _ _ _ _ equation

def lines (source : List Char) : List Line := linesFrom 1 0 source

/-- The first line that a position comes before the end of. Later positions are on the last
line. -/
def findIn (position : Nat) (first : Line) : List Line → Line
  | [] => first
  | next :: later => if position < first.span.stop then first else findIn position next later

theorem linesFromNonempty (number position : Nat) (source : List Char) :
    linesFrom number position source ≠ [] := by
  rw [linesFrom]
  split <;> exact List.cons_ne_nil _ _

/-- The line of a byte position. -/
def find (source : List Char) (position : Nat) : Line :=
  match equation : lines source with
  | [] => absurd equation (linesFromNonempty 1 0 source)
  | first :: later => findIn position first later

/-- The line as it is shown: without carriage returns and line feeds. -/
def display (line : Line) : List Char :=
  line.characters.filter fun character => character ≠ '\r' && character ≠ '\n'

end Line

end Cpl
