/-
The journal: records of what the compiler does, for those who want to follow it.
-/

import Cpl.Quad.Lowering

namespace Cpl

inductive Level where
  | error
  | warn
  | info
  | debug
  | trace
deriving DecidableEq

namespace Level

def text : Level → String
  | error => "ERROR"
  | warn => "WARN"
  | info => "INFO"
  | debug => "DEBUG"
  | trace => "TRACE"

/-- The verbosity from which on records of a level are shown. -/
def verbosity : Level → Nat
  | error => 0
  | warn => 1
  | info => 2
  | debug => 3
  | trace => 4

end Level

structure Record where
  level : Level
  message : String
deriving DecidableEq

def Record.text (record : Record) : String := record.level.text ++ " - " ++ record.message

abbrev Journal := List Record

namespace Journal

def ofTokens (tokenCount errorCount : Nat) : Journal :=
  [⟨.trace, s!"Lexed {tokenCount} tokens with {errorCount} errors"⟩]

def ofProgram (program : Program) : Journal :=
  [⟨.trace, s!"parsed {program.declarations.length} declaration(s) and " ++
    s!"{program.body.length} top-level statement(s)"⟩]

def ofScope (scope : Scope) : Journal := [⟨.trace, s!"declared {scope.size} identifier(s)"⟩]

/-- Records of the indices that are passed over between two temporaries. -/
def ofPassedOver (scope : Scope) (last limit : Nat) : Journal :=
  (scope.passedOver last limit).map fun index =>
    ⟨.trace, "skipping " ++ (Name.temp index).text ++ ", which is a declared variable"⟩

/-- Records of the statements left out and of the indices passed over, in the order in which both
happened. -/
def ofDrops (scope : Scope) (last limit : Nat) : List Drop → Journal
  | [] => ofPassedOver scope last limit
  | drop :: later =>
      ofPassedOver scope last drop.temps
        ++ [⟨.debug, "dropping statement: " ++ drop.error.cause.message⟩]
        ++ ofDrops scope drop.temps limit later

def ofGenerated (scope : Scope) (generated : Generated) : Journal :=
  ofDrops scope 0 generated.temps generated.drops
    ++ [⟨.trace, s!"generated {generated.code.length} instruction(s)"⟩]

end Journal

end Cpl
