/-
Text between double quotes, with escapes for what a reader could not see.
-/

import Cpl.Text.Hidden

namespace Cpl

/-- The code of a character in lower-case hexadecimal between braces. -/
def escapeCode (character : Char) : List Char :=
  '\\' :: 'u' :: '\x7b' :: Nat.toDigits 16 character.toNat ++ ['\x7d']

def escape : Char → List Char
  | '\x00' => ['\\', '0']
  | '\t' => ['\\', 't']
  | '\r' => ['\\', 'r']
  | '\n' => ['\\', 'n']
  | '"' => ['\\', '"']
  | '\\' => ['\\', '\\']
  | character => if isHidden character then escapeCode character else [character]

def quoted (text : String) : String :=
  String.ofList ('"' :: text.toList.flatMap escape ++ ['"'])

end Cpl
