import Calque.Decimal.Shortest
import Calque.Text.Quoted

namespace Calque.Json

inductive Unfinished
  | value
  | string
  | list
  | object
  deriving DecidableEq, Repr

inductive Found
  | null
  | boolean (b : Bool)
  | integer (n : Int)
  | float (x : Decimal.Binary64)
  | string (s : String)
  | sequence
  | map
  deriving DecidableEq, Repr

inductive Fault
  | ended (what : Unfinished)
  | expectedValue
  | misspeltWord
  | expectedColon
  | expectedListSeparator
  | expectedObjectSeparator
  | keyNotString
  | trailingComma
  | trailingCharacters
  | malformedNumber
  | numberOutOfRange
  | malformedEscape
  | controlCharacter
  /-- A leading surrogate that no escape follows. -/
  | brokenPair
  /-- A trailing surrogate alone, or a leading one before an escape that is not trailing. -/
  | loneSurrogate
  | wrongType (found : Found) (wanted : String)
  | wrongValue (found : Found) (wanted : String)
  | wrongLength (n : Nat) (wanted : String)
  | unknownVariant (name : String) (known : List String)
  | unknownField (name : String) (known : List String)
  | missingField (name : String)
  | repeatedField (name : String)
  deriving DecidableEq, Repr

inductive Category
  | ended
  | grammar
  | data
  deriving DecidableEq, Repr

def Fault.category : Fault → Category
  | .ended _ => .ended
  | .wrongType .. | .wrongValue .. | .wrongLength .. | .unknownVariant .. | .unknownField ..
  | .missingField _ | .repeatedField _ => .data
  | _ => .grammar

def ticked (s : String) : String := "`" ++ s ++ "`"

def Unfinished.describe : Unfinished → String
  | .value => "a value"
  | .string => "a string"
  | .list => "a list"
  | .object => "an object"

def Found.describe : Found → String
  | .null => "null"
  | .boolean b => "boolean " ++ ticked (if b then "true" else "false")
  | .integer n => "integer " ++ ticked (toString n)
  | .float x => "floating point " ++ ticked x.toText
  | .string s => "string " ++ Text.quoted s
  | .sequence => "sequence"
  | .map => "map"

def oneOf : List String → String
  | [a, b] => ticked a ++ " or " ++ ticked b
  | [a] => ticked a
  | names => "one of " ++ ", ".intercalate (names.map ticked)

def Fault.message : Fault → String
  | .ended what => "EOF while parsing " ++ what.describe
  | .expectedValue => "expected value"
  | .misspeltWord => "expected ident"
  | .expectedColon => "expected `:`"
  | .expectedListSeparator => "expected `,` or `]`"
  | .expectedObjectSeparator => "expected `,` or `\x7d`"
  | .keyNotString => "key must be a string"
  | .trailingComma => "trailing comma"
  | .trailingCharacters => "trailing characters"
  | .malformedNumber => "invalid number"
  | .numberOutOfRange => "number out of range"
  | .malformedEscape => "invalid escape"
  | .controlCharacter => "control character (\\u0000-\\u001F) found while parsing a string"
  | .brokenPair => "unexpected end of hex escape"
  | .loneSurrogate => "lone leading surrogate in hex escape"
  | .wrongType found wanted => "invalid type: " ++ found.describe ++ ", expected " ++ wanted
  | .wrongValue found wanted => "invalid value: " ++ found.describe ++ ", expected " ++ wanted
  | .wrongLength n wanted => "invalid length " ++ toString n ++ ", expected " ++ wanted
  | .unknownVariant name known =>
    "unknown variant " ++ ticked name ++ ", expected " ++ oneOf known
  | .unknownField name known => "unknown field " ++ ticked name ++ ", expected " ++ oneOf known
  | .missingField name => "missing field " ++ ticked name
  | .repeatedField name => "duplicate field " ++ ticked name

end Calque.Json
