import Ensemble.Json.Printer
import Ensemble.Text.Quoted

/-!
# What can be wrong with a JSON text

A `ReadError` is about the text itself and knows its place. A `Mismatch` is about well-formed
JSON that is not what the reader asked for.
-/

namespace Ensemble.Json

/-- Line from 1, and the number of bytes of that line up to and including the place. -/
structure Position where
  line : Nat
  column : Nat
deriving DecidableEq

inductive ReadFault where
  | endInValue
  | endInText
  | endInArray
  | endInObject
  | expectedColon
  | expectedArrayEnd
  | expectedObjectEnd
  | expectedLiteral
  | expectedValue
  | invalidEscape
  | invalidNumber
  | numberOutOfRange
  | loneSurrogate
  | surrogateCutShort
  | controlCharacter
  | keyNotText
  | trailingComma
  | trailingCharacters
  | tooDeep
deriving DecidableEq

def ReadFault.message : ReadFault → String
  | .endInValue => "EOF while parsing a value"
  | .endInText => "EOF while parsing a string"
  | .endInArray => "EOF while parsing a list"
  | .endInObject => "EOF while parsing an object"
  | .expectedColon => "expected `:`"
  | .expectedArrayEnd => "expected `,` or `]`"
  | .expectedObjectEnd => "expected `,` or `\x7d`"
  | .expectedLiteral => "expected ident"
  | .expectedValue => "expected value"
  | .invalidEscape => "invalid escape"
  | .invalidNumber => "invalid number"
  | .numberOutOfRange => "number out of range"
  | .loneSurrogate => "lone leading surrogate in hex escape"
  | .surrogateCutShort => "unexpected end of hex escape"
  | .controlCharacter => "control character (\\u0000-\\u001F) found while parsing a string"
  | .keyNotText => "key must be a string"
  | .trailingComma => "trailing comma"
  | .trailingCharacters => "trailing characters"
  | .tooDeep => "recursion limit exceeded"

structure ReadError where
  fault : ReadFault
  place : Position
deriving DecidableEq

inductive Found where
  | null
  | bool (b : Bool)
  | number (n : Number)
  | text (s : String)
  | sequence
  | map

def Found.message : Found → String
  | .null => "null"
  | .bool b => if b then "boolean `true`" else "boolean `false`"
  | .number (.whole n) => s!"integer `{n}`"
  | .number (.float x) => "floating point `" ++ floatLayout.float x ++ "`"
  | .number (.float32 x) => "floating point `" ++ floatLayout.float32 x ++ "`"
  | .text s => "string " ++ Text.quoted s
  | .sequence => "sequence"
  | .map => "map"

inductive Mismatch where
  | type (found : Found) (expected : String)
  | value (found : Found) (expected : String)
  | length (count : Nat) (expected : String)
  | variant (name : String) (known : List String)
  | missing (field : String)
  | duplicate (field : String)
  | custom (message : String)

def ticked (s : String) : String := "`" ++ s ++ "`"

def oneOf : List String → String
  | [] => "there are no variants"
  | [a] => "expected " ++ ticked a
  | [a, b] => "expected " ++ ticked a ++ " or " ++ ticked b
  | names => "expected one of " ++ ", ".intercalate (names.map ticked)

def Mismatch.message : Mismatch → String
  | .type found expected => "invalid type: " ++ found.message ++ ", expected " ++ expected
  | .value found expected => "invalid value: " ++ found.message ++ ", expected " ++ expected
  | .length count expected => s!"invalid length {count}, expected " ++ expected
  | .variant name known => "unknown variant " ++ ticked name ++ ", " ++ oneOf known
  | .missing field => "missing field " ++ ticked field
  | .duplicate field => "duplicate field " ++ ticked field
  | .custom message => message

/-- `form` is a fault of the text seen only by a reader who knows what it wants; its place is lost. -/
inductive Error where
  | read (e : ReadError)
  | form (fault : ReadFault)
  | data (m : Mismatch)

inductive Category where
  | syntactic
  | endOfText
  | data
deriving DecidableEq

def ReadFault.category : ReadFault → Category
  | .endInValue | .endInText | .endInArray | .endInObject => .endOfText
  | _ => .syntactic

def Error.category : Error → Category
  | .read e => e.fault.category
  | .form fault => fault.category
  | .data _ => .data

/-- A read error names its place; a mismatch has none of its own. -/
def Error.message : Error → String
  | .read ⟨fault, ⟨line, column⟩⟩ => fault.message ++ s!" at line {line} column {column}"
  | .form fault => fault.message
  | .data m => m.message

end Ensemble.Json
