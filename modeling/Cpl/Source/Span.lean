/-
Byte ranges of a source text, and the characters they cut out.
-/

namespace Cpl

/-- A half-open range of byte positions. -/
structure Span where
  start : Nat
  stop : Nat
deriving DecidableEq

namespace Span

/-- The empty range at one position. -/
def point (position : Nat) : Span := ⟨position, position⟩

/-- The number of bytes covered; a range that ends before it starts has none. -/
def length? (span : Span) : Option Nat :=
  if span.start ≤ span.stop then some (span.stop - span.start) else none

def text (span : Span) : String := s!"{span.start}..{span.stop}"

end Span

/-- The number of bytes that the characters take in UTF-8. -/
def byteLength : List Char → Nat
  | [] => 0
  | character :: rest => character.utf8Size + byteLength rest

/-- What follows the first `count` bytes. There is no answer past the end or inside a character. -/
def dropBytes? (count : Nat) : List Char → Option (List Char)
  | [] => if count = 0 then some [] else none
  | character :: rest =>
      if count = 0 then some (character :: rest)
      else if character.utf8Size ≤ count then dropBytes? (count - character.utf8Size) rest
      else none

/-- The first `count` bytes. There is no answer past the end or inside a character. -/
def takeBytes? (count : Nat) : List Char → Option (List Char)
  | [] => if count = 0 then some [] else none
  | character :: rest =>
      if count = 0 then some []
      else if character.utf8Size ≤ count then
        (takeBytes? (count - character.utf8Size) rest).map (character :: ·)
      else none

/-- The characters of a range that lies in the source, in order and on character boundaries. -/
def Span.slice? (span : Span) (source : List Char) : Option (List Char) := do
  let length ← span.length?
  let rest ← dropBytes? span.start source
  takeBytes? length rest

end Cpl
