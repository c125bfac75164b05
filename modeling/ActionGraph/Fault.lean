import ActionGraph.Value.Text
import ActionGraph.Validation.Issue

/-!
What can go wrong while a graph runs. A fault names its cause; the kind and the message that it
is reported with follow from the cause.
-/

namespace ActionGraph

inductive Fault where
  | notOffered (type : String) (available : List String)
  | unassigned (type : String) (available : List String)
  | invalid (model : String) (issues : List Issue)
  | failure (message : String)
  | unsuitable (message : String)
  | noEventLoop
  | missingKey (key : Value)
  | missingAttribute (typeName name : String)
  | notIndexable (typeName : String)
  | wrongIndex (container index : Value)
  | outOfRange (container : String)
  | wrongOperands (operator left right : String)
  | notRepeatable (count : String)
  | notOrdered (operator left right : String)
  | notWhole (typeName : String)
  | negativeCount
  | countTooLarge
  | repeatedArgument (function argument : String)
  | notText (index : Nat)
  | divisionByZero
  | integerTooLarge
  | integerTooLong
  | quotientTooLarge
  | clockExhausted
  | undefinedName (name : String)
  | unknownPart (name : String)
  | unknownName (name : String)
  | malformed (message : String)
  | misindented (message : String)
  | unusableArgument (message : String)
  | unwritable (typeName : String)
  | tooDeep
  | notListed
  | directory (path : String)
  | noSuchPath (path : String)
  | notDirectory (path : String)
  | pathTooLong (path : String)
  | nullInPath
  deriving Inhabited

namespace Fault

def kind : Fault → String
  | .notOffered .. => "ValueError"
  | .unassigned .. => "ValueError"
  | .invalid .. => "ValidationError"
  | .failure _ => "RuntimeError"
  | .unsuitable _ => "ValueError"
  | .noEventLoop => "RuntimeError"
  | .missingKey _ => "KeyError"
  | .missingAttribute .. => "AttributeError"
  | .notIndexable _ => "TypeError"
  | .wrongIndex .. => "TypeError"
  | .outOfRange _ => "IndexError"
  | .wrongOperands .. => "TypeError"
  | .notRepeatable _ => "TypeError"
  | .notOrdered .. => "TypeError"
  | .notWhole _ => "TypeError"
  | .negativeCount => "OverflowError"
  | .countTooLarge => "OverflowError"
  | .repeatedArgument .. => "TypeError"
  | .notText _ => "TypeError"
  | .divisionByZero => "ZeroDivisionError"
  | .integerTooLarge => "OverflowError"
  | .integerTooLong => "ValueError"
  | .quotientTooLarge => "OverflowError"
  | .clockExhausted => "StopIteration"
  | .undefinedName _ => "NameError"
  | .unknownPart _ => "ModuleNotFoundError"
  | .unknownName _ => "AttributeError"
  | .malformed _ => "SyntaxError"
  | .misindented _ => "IndentationError"
  | .unusableArgument _ => "ArgumentTypeError"
  | .unwritable _ => "PydanticSerializationError"
  | .tooDeep => "PydanticSerializationError"
  | .notListed => "ValueError"
  | .directory _ => "IsADirectoryError"
  | .noSuchPath _ => "FileNotFoundError"
  | .notDirectory _ => "NotADirectoryError"
  | .pathTooLong _ => "OSError"
  | .nullInPath => "ValueError"

def issueCount (model : String) (issues : List Issue) : String :=
  let noun := if issues.length = 1 then "error" else "errors"
  s!"{issues.length} validation {noun} for {model}"

def message : Fault → String
  | .notOffered type available =>
    s!"Unknown node type: {type}\nAvailable types: " ++ ", ".intercalate available
  | .unassigned type available =>
    s!"No behavior registered for node type: {type}\nAvailable types: " ++ ", ".intercalate available
  | .invalid model issues => issueCount model issues
  | .failure m => m
  | .unsuitable m => m
  | .noEventLoop => "no running event loop"
  | .missingKey key => key.quoted
  | .missingAttribute typeName name => s!"'{typeName}' object has no attribute '{name}'"
  | .notIndexable typeName => s!"'{typeName}' object is not subscriptable"
  | .wrongIndex (.text _) index => s!"string indices must be integers, not '{index.qualifiedTypeName}'"
  | .wrongIndex (.bytes _) index => s!"byte indices must be integers or slices, not {index.qualifiedTypeName}"
  | .wrongIndex container index =>
    s!"{container.qualifiedTypeName} indices must be integers or slices, not {index.qualifiedTypeName}"
  | .outOfRange container => s!"{container} index out of range"
  | .wrongOperands operator left right =>
    s!"unsupported operand type(s) for {operator}: '{left}' and '{right}'"
  | .notRepeatable count => s!"can't multiply sequence by non-int of type '{count}'"
  | .notOrdered operator left right =>
    s!"'{operator}' not supported between instances of '{left}' and '{right}'"
  | .notWhole typeName => s!"'{typeName}' object cannot be interpreted as an integer"
  | .negativeCount => "can't convert negative int to unsigned"
  | .countTooLarge => "int too big to convert"
  | .repeatedArgument function argument => s!"{function}() got multiple values for argument '{argument}'"
  | .notText index => s!"sequence item {index}: expected str instance, list found"
  | .divisionByZero => "division by zero"
  | .integerTooLarge => "int too large to convert to float"
  | .integerTooLong =>
    s!"Exceeds the limit ({Value.longestSpelling} digits) for integer string conversion; "
      ++ "use sys.set_int_max_str_digits() to increase the limit"
  | .quotientTooLarge => "integer division result too large for a float"
  | .clockExhausted => ""
  | .undefinedName name => s!"name '{name}' is not defined"
  | .unknownPart name => s!"No module named '{name}'"
  | .unknownName name => name
  | .malformed m => m
  | .misindented m => m
  | .unusableArgument m => m
  | .unwritable typeName => s!"Unable to serialize unknown type: <class '{typeName}'>"
  | .tooDeep => "Error serializing to JSON: ValueError: Circular reference detected (depth exceeded)"
  | .notListed => "list.remove(x): x not in list"
  | .directory path => "[Errno 21] Is a directory: " ++ Text.quoted path
  | .noSuchPath path => "[Errno 2] No such file or directory: " ++ Text.quoted path
  | .notDirectory path => "[Errno 20] Not a directory: " ++ Text.quoted path
  | .pathTooLong path => "[Errno 36] File name too long: " ++ Text.quoted path
  | .nullInPath => "embedded null byte"

def line (f : Fault) : String := f.kind ++ ": " ++ f.message

end Fault

end ActionGraph
