import Assay.Fault

/-!
Contract: the machine that a program is checked for.

Owns: the word and character types of the target, and which names are fit for them.
-/

namespace Assay

/-- The names of the machine word and of the characters that strings are made of. -/
structure Target where
  word : String := "uint32_t"
  character : String := "uint8_t"
deriving DecidableEq, Repr, Inhabited

namespace Target

def namesInteger (name : String) : Bool :=
  (Kind.ofSpelling? name).any Kind.isInteger

/-- Both names must be built-in integers. The word is looked at first. -/
def validate (target : Target) : Except Fault Unit :=
  if !namesInteger target.word then
    .error (.invalidTargetType "word" target.word)
  else if !namesInteger target.character then
    .error (.invalidTargetType "character" target.character)
  else
    .ok ()

def wordType (target : Target) (loc : Location) : Ty :=
  .ofName target.word loc

def characterType (target : Target) (loc : Location) : Ty :=
  .ofName target.character loc

end Target

end Assay
