import Assay.Literal
import Assay.Operator

/-!
Contract: what can be wrong with a program.

Owns:
- the violations that registration, name search and checking report;
- the violations that folding reports;
- the wording and the code of both.

Does not own: where a violation is reported and how severe it is.
-/

namespace Assay

/-- A violation found while declarations are registered, names are looked up or expressions are
checked. Types are kept as written. -/
inductive Fault where
  | duplicateDefinition (name : String)
  | sealedStruct (struct member : String)
  | reservedMember (struct member : String)
  | duplicateParameter (func name : String)
  | invalidTargetType (role name : String)
  | unknownModule (name : String)
  | missingImport (typeName module : String)
  | noDefinitionScope (name : String)
  | definitionNotFound (name : String)
  | unclassifiableDefinition (name : String)
  | unboundMember (struct member ty : String)
  | unresolvedScopedMember (struct member ty : String)
  | undefinedName (name : String)
  | undefinedConstructorType (name : String)
  | notAStruct (name : String)
  | tooManyInitializers (given members : Nat)
  | argumentTypeMismatch (index : Nat) (expected got : String)
  | nonConstInitializer (index : Nat) (ty : String)
  | unknownOperator (symbol : String)
  | constantTypeMismatch (name expected got : String)
  | notConstant (op : String)
  | notIndexable (ty : String)
deriving DecidableEq, Repr, Inhabited

def Fault.message : Fault → String
  | .duplicateDefinition name => "Duplicate definition: " ++ name
  | .sealedStruct struct member =>
      "struct '" ++ struct ++ "' already carries its runtime members; '" ++ member ++
        "' cannot be added after them"
  | .reservedMember struct member =>
      "'" ++ member ++ "' is reserved for the runtime bookkeeping of struct '" ++ struct ++ "'"
  | .duplicateParameter func name =>
      "Function '" ++ func ++ "' already has a parameter named '" ++ name ++ "'"
  | .invalidTargetType role name =>
      "The target " ++ role ++ " type must be an integer builtin, got '" ++ name ++ "'"
  | .unknownModule name => "No module named '" ++ name ++ "' is declared."
  | .missingImport typeName module =>
      "The scoped type name '" ++ typeName ++ "' refers to a module '" ++ module ++
        "' that was not imported."
  | .noDefinitionScope name => "The type named '" ++ name ++ "' has no definition scope."
  | .definitionNotFound name =>
      "The type named '" ++ name ++ "' could not be found during type resolution."
  | .unclassifiableDefinition name =>
      "The definition named '" ++ name ++
        "' was found, but its own type is unresolved and cannot be classified."
  | .unboundMember struct member ty =>
      "struct '" ++ struct ++ "' has a member named '" ++ member ++
        "' which is supposedly of a type called '" ++ ty ++
        "'. However that type is not a primitive, nor has it been found defined in the " ++
        "current module."
  | .unresolvedScopedMember struct member ty =>
      "struct '" ++ struct ++ "' has a member named '" ++ member ++
        "' whose type name includes a scope modifier. One or more scope modifiers in type " ++
        "name '" ++ ty ++ "' cannot be found."
  | .undefinedName name => "Undefined name: " ++ name
  | .undefinedConstructorType name =>
      "Cannot construct an instance of type '" ++ name ++
        "', no definition for the type was found."
  | .notAStruct name => "Cannot construct an instance of '" ++ name ++ "', it is not a struct."
  | .tooManyInitializers given members =>
      "Too many arguments in the constructor. The type has " ++ toString members ++
        " members, the constructor specified " ++ toString given ++ "."
  | .argumentTypeMismatch index expected got =>
      "The types of argument " ++ toString index ++ " are not the same between the struct " ++
        "constructor and the struct definition. The definition claims type '" ++ expected ++
        "', while the constructor uses type '" ++ got ++ "'"
  | .nonConstInitializer index ty =>
      "This construct requires that all initializer expressions be constant types. Argument " ++
        toString index ++ " of type '" ++ ty ++ "' does not fit this constraint."
  | .unknownOperator symbol => "Unknown operator '" ++ symbol ++ "'."
  | .constantTypeMismatch name expected got =>
      "The constant '" ++ name ++ "' is declared as '" ++ expected ++
        "', but its value has type '" ++ got ++ "'."
  | .notConstant op =>
      "A constant value is required, but the '" ++ op ++ "' expression is not constant."
  | .notIndexable ty =>
      "The type of the source for the index operation is '" ++ ty ++
        "', which is not an indexable type."

/-- The code of a violation, for tools that sort them. -/
def Fault.code : Fault → String
  | .duplicateDefinition .. => "DuplicateDefinition"
  | .sealedStruct .. => "SealedStruct"
  | .reservedMember .. => "ReservedMember"
  | .duplicateParameter .. => "DuplicateParameter"
  | .invalidTargetType .. => "InvalidTargetType"
  | .unknownModule .. => "UnknownModule"
  | .missingImport .. => "MissingImport"
  | .noDefinitionScope .. => "NoDefinitionScope"
  | .definitionNotFound .. => "DefinitionNotFound"
  | .unclassifiableDefinition .. => "UnclassifiableDefinition"
  | .unboundMember .. => "UnboundMember"
  | .unresolvedScopedMember .. => "UnresolvedScopedMember"
  | .undefinedName .. => "UndefinedName"
  | .undefinedConstructorType .. => "UndefinedConstructorType"
  | .notAStruct .. => "NotAStruct"
  | .tooManyInitializers .. => "TooManyInitializers"
  | .argumentTypeMismatch .. => "ArgumentTypeMismatch"
  | .nonConstInitializer .. => "NonConstInitializer"
  | .unknownOperator .. => "UnknownOperator"
  | .constantTypeMismatch .. => "ConstantTypeMismatch"
  | .notConstant .. => "NotConstant"
  | .notIndexable .. => "NotIndexable"

/-- A violation found while a constant expression is folded. -/
inductive FoldFault where
  | unsupported (op : BinOp) (left right : Literal)
  | divisionByZero
  | overflow
  | notLiteral (op : BinOp)
deriving Repr, Inhabited

def FoldFault.message : FoldFault → String
  | .unsupported op left right =>
      "The operator '" ++ op.symbol ++ "' cannot be applied to the constants " ++ left.render ++
        " and " ++ right.render ++ "."
  | .divisionByZero => "Division by zero in a constant expression."
  | .overflow => "The constant expression does not fit in 64 bits."
  | .notLiteral op => "An operand of '" ++ op.symbol ++ "' did not fold to a literal value."

def FoldFault.code : FoldFault → String
  | .unsupported .. => "Unsupported"
  | .divisionByZero => "DivisionByZero"
  | .overflow => "Overflow"
  | .notLiteral .. => "NotLiteral"

end Assay
