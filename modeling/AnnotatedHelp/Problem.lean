import AnnotatedHelp.Count
import AnnotatedHelp.Constraint
import AnnotatedHelp.Kind
import AnnotatedHelp.Settings
import AnnotatedHelp.Definition.Key
import AnnotatedHelp.Diagnostic

/-!
# Problems of help texts

Every way in which a help text can be refused, as a cause with the data that its report mentions.
A cause has a category and a message, and becomes a diagnostic once its place is known.
-/

namespace AnnotatedHelp

/-- Why a help text is refused. -/
inductive Problem where
  /-- The settings have no usable tokens. -/
  | unusableSettings (problem : SettingsProblem)
  /-- A definition is not closed by the closing token. -/
  | unclosedDefinition (closing : String)
  /-- A property has no colon. -/
  | missingColon (field : String)
  /-- A property has an unknown name. -/
  | unknownProperty (name : String)
  /-- A definition gives two values for one property. -/
  | repeatedProperty (key : PropertyKey) (first second : String)
  /-- A declared flag contains an equals sign. -/
  | illegalFlag (flag : String)
  /-- A kind has an unknown name. -/
  | illegalKind (name : String)
  /-- A value type has an unknown name. -/
  | illegalValueType (name : String)
  /-- The visibility is neither true nor false. -/
  | illegalVisibility (value : String)
  /-- The constraints on values cannot be read. -/
  | illegalValues (error : ConstraintError)
  /-- A word among the flags is neither a flag nor a placeholder. -/
  | strayWord (word : String)
  /-- An option declares an index. -/
  | indexOfOption
  /-- The declared flags are empty. -/
  | noFlags
  /-- A positional argument declares a literal. -/
  | literalOfPositional
  /-- An option has both a placeholder and a literal. -/
  | placeholderAndLiteral
  /-- The declared literal is empty. -/
  | emptyLiteral
  /-- A delimiter count is declared where there is no delimiter. -/
  | countWithoutDelimiter
  /-- The declared delimiter is not one visible character. -/
  | illegalDelimiter (capturedComma : Bool)
  /-- A count cannot be read. -/
  | illegalCount (key : PropertyKey) (error : CountError)
  /-- An option of a special kind captures a value. -/
  | specialCaptures (kind : Kind)
  /-- An option of a special kind assigns something else than `true`. -/
  | specialLiteral (kind : Kind)
  /-- A default has more than one part but too few. -/
  | shortDefault (arity : Nat)
  /-- The largest admitted count is zero. -/
  | zeroMaximum
  /-- The declared member name is empty. -/
  | emptyMemberName
  /-- An index is no integer. -/
  | unreadableIndex (text : String)
  /-- An index is not below the number of positional arguments. -/
  | indexOutOfRange (total : Nat) (index : Int)
  /-- Two positional arguments declare one index. -/
  | duplicateIndex
  /-- Options and positional arguments write to one member. -/
  | mixedMember (member : String)
  /-- Two definitions give different values of a property of their member. -/
  | differingProperty (member : String) (key : PropertyKey) (first second : String)
  /-- Options of one member declare different counts. -/
  | differingCounts (member : String)
  /-- A literal of the member has no type. -/
  | untypedLiteral (member : String)
  /-- The literals of the member have types that do not agree. -/
  | ambiguousType (member : String) (types : List ValueType)
  /-- A member of kind multivalue has a delimiter count that is not fixed. -/
  | openMultivalue (member : String)
  /-- A member that is no collection can be given more than once. -/
  | repeatedSingle (member : String)
  /-- A member of a special kind has another type than bool. -/
  | specialType (member : String) (kind : Kind) (valueType : ValueType)
  /-- A member of a special kind is set by a positional argument. -/
  | specialPositional (member : String) (kind : Kind)
  /-- A member of a special kind has constraints. -/
  | specialValues (member : String) (kind : Kind)
  /-- A member that has to be given declares a default. -/
  | defaultOfRequired (member : String)
  /-- A list declares a default. -/
  | defaultOfList (member : String)
  /-- The document has no help member although one is required. -/
  | noHelp
  /-- The file could not be read. -/
  | unreadable (reason : String)
  deriving DecidableEq, Repr

namespace Problem

/-- The sort of rule that was broken. -/
def category : Problem → Category
  | unusableSettings _ => .invalidPropertyValue
  | unclosedDefinition _ => .malformedDefinition
  | missingColon _ => .malformedDefinition
  | unknownProperty _ => .unknownProperty
  | repeatedProperty .. => .conflictingProperty
  | illegalFlag _ => .illegalFlagSyntax
  | illegalKind _ => .illegalTypeValue
  | illegalValueType _ => .illegalTypeValue
  | illegalVisibility _ => .invalidPropertyValue
  | illegalValues (.unterminatedQuote _) => .missingClosingToken
  | illegalValues (.emptyRange _) => .invalidPropertyValue
  | strayWord _ => .illegalFlagSyntax
  | indexOfOption => .conflictingProperty
  | noFlags => .missingRequiredProperty
  | literalOfPositional => .conflictingProperty
  | placeholderAndLiteral => .conflictingProperty
  | emptyLiteral => .missingRequiredProperty
  | countWithoutDelimiter => .missingRequiredProperty
  | illegalDelimiter _ => .invalidPropertyValue
  | illegalCount .. => .invalidPropertyValue
  | specialCaptures _ => .conflictingProperty
  | specialLiteral _ => .conflictingProperty
  | shortDefault _ => .illegalDefaultValue
  | zeroMaximum => .invalidPropertyValue
  | emptyMemberName => .missingRequiredProperty
  | unreadableIndex _ => .invalidIndex
  | indexOutOfRange .. => .invalidIndex
  | duplicateIndex => .duplicateIndex
  | mixedMember _ => .conflictingProperty
  | differingProperty .. => .conflictingProperty
  | differingCounts _ => .conflictingCount
  | untypedLiteral _ => .ambiguousOrInvalidType
  | ambiguousType .. => .ambiguousOrInvalidType
  | openMultivalue _ => .conflictingProperty
  | repeatedSingle _ => .conflictingProperty
  | specialType .. => .conflictingProperty
  | specialPositional .. => .conflictingProperty
  | specialValues .. => .conflictingProperty
  | defaultOfRequired _ => .illegalDefaultValue
  | defaultOfList _ => .illegalDefaultValue
  | noHelp => .missingRequiredProperty
  | unreadable _ => .unreadable

/-- Two values of one property, as a conflict names them. -/
def bothValues (key : PropertyKey) (first second : String) : String :=
  "Multiple definitions of property " ++ key.name ++ ": \"" ++ first ++ "\" and \"" ++ second
    ++ "\""

/-- The sentence that reports the problem. -/
def message : Problem → String
  | unusableSettings problem => problem.message
  | unclosedDefinition closing =>
    "Definition seems to be missing a closing \"" ++ closing ++ "\""
  | missingColon field => "Property \"" ++ field ++ "\" is not of the form \"Key: Value\"."
  | unknownProperty name => "Unknown property name: " ++ name
  | repeatedProperty key first second => bothValues key first second
  | illegalFlag flag => "\"" ++ flag ++ "\" is an illegal flag (it contains =)"
  | illegalKind name => name ++ " is an illegal value for the type property"
  | illegalValueType name => name ++ " is an illegal value for the value_type property"
  | illegalVisibility value => "Visible must be true or false, not \"" ++ value ++ "\"."
  | illegalValues error => "Invalid values property: " ++ error.message
  | strayWord word => "Invalid option: " ++ word
  | indexOfOption => "Options can't have the index property."
  | noFlags => "Flags property can't be empty."
  | literalOfPositional => "Arguments can't have the value property."
  | placeholderAndLiteral => "An option can't have both argument and value properties."
  | emptyLiteral => "Value property can't be empty."
  | countWithoutDelimiter => "DelimiterCount property where there is no delimiter."
  | illegalDelimiter capturedComma =>
    "Delimiter must be a single non-whitespace character." ++
      if capturedComma then " Use \"DelimiterCount: 0\" to disable the comma-delimiter." else ""
  | illegalCount key error => "Invalid " ++ key.name ++ " property: " ++ error.message
  | specialCaptures kind => "Options of type " ++ kind.name ++ " can't take an argument."
  | specialLiteral kind => "Options of type " ++ kind.name ++ " must have value \"true\"."
  | shortDefault arity =>
    "Default has too few delimited values (expects " ++ arity.repr ++ ")."
  | zeroMaximum => "Max-count can't be 0."
  | emptyMemberName => "Member name can't be empty."
  | unreadableIndex text => "Invalid index property: " ++ text
  | indexOutOfRange total index =>
    "Index must be between 0 and " ++ (total - 1).repr ++ ", it is " ++ Text.integerText index ++ "."
  | duplicateIndex => "Two arguments can't have the same index."
  | mixedMember member =>
    member ++ ": arguments and options can't write to the same member. " ++
      "(Use the \"member\" property to set a different member name)"
  | differingProperty member key first second => member ++ ": " ++ bothValues key first second
  | differingCounts member =>
    member ++ ": conflicting count properties. Options writing to the same member must have " ++
      "the same count."
  | untypedLiteral member =>
    member ++ ": unable to infer correct value type. (String values must be enclosed by quotes, " ++
      "e.g. \"foo\")"
  | ambiguousType member types =>
    member ++ ": unable to infer correct value type, can be any of " ++
      ", ".intercalate (types.map ValueType.name) ++ "."
  | openMultivalue member =>
    member ++ ": type \"multivalue\" requires a fixed number of delimiters."
  | repeatedSingle member =>
    member ++ ": type must be \"list\" or \"multivalue\" when the maximum count is greater than 1."
  | specialType member kind valueType =>
    member ++ ": when type is \"" ++ kind.name ++ "\", value_type must be bool, not " ++
      valueType.name ++ "."
  | specialPositional member kind =>
    member ++ ": only options can have type \"" ++ kind.name ++ "\"."
  | specialValues member kind =>
    member ++ ": options of type \"" ++ kind.name ++ "\" can't have the \"values\" property."
  | defaultOfRequired member =>
    member ++ ": can't have default value when minimum count is non-zero."
  | defaultOfList member => member ++ ": can't have default value when type is \"list\"."
  | noHelp =>
    "There is no help option. Use property \"Type: help\" to indicate the help option."
  | unreadable reason => "can't read file: " ++ reason

/-- The problem as a diagnostic whose place is not known yet. -/
def diagnostic (problem : Problem) : Diagnostic :=
  .unplaced problem.category problem.message

/-- The problem as a diagnostic of the given lines. -/
def atLines (problem : Problem) (lines : List Nat) : Diagnostic :=
  problem.diagnostic.withLines lines

end Problem

end AnnotatedHelp
