import Ensemble.Decimal.Shortest
import Ensemble.Json.Basic

/-!
# Writing JSON

Compact text: no blanks, members in the order they have. A float without a finite value is
written as null.
-/

namespace Ensemble.Json

/-- Floats are written in places for exponents from -5 to 15; other exponents carry their sign. -/
def floatLayout : Decimal.Layout where
  places e := decide (-5 ≤ e ∧ e ≤ 15)
  exponentMark e := if e < 0 then s!"e{e}" else s!"e+{e}"
  nan _ := "null"
  infinity _ := "null"

def escapedChar (c : Char) : List Char :=
  if c = '"' then ['\\', '"']
  else if c = '\\' then ['\\', '\\']
  else if c = '\x08' then ['\\', 'b']
  else if c = '\x0c' then ['\\', 'f']
  else if c = '\n' then ['\\', 'n']
  else if c = '\r' then ['\\', 'r']
  else if c = '\t' then ['\\', 't']
  else if c.toNat < 0x20 then
    ['\\', 'u', '0', '0', Nat.digitChar (c.toNat / 16), Nat.digitChar (c.toNat % 16)]
  else [c]

/-- A quote, a backslash and the characters below the blank are escaped, and nothing else. -/
def printText (s : String) : List Char := '"' :: s.toList.flatMap escapedChar ++ ['"']

def printNumber : Number → List Char
  | .whole n => (toString n).toList
  | .float x => (floatLayout.float x).toList
  | .float32 x => (floatLayout.float32 x).toList

mutual

def print : Json → List Char
  | .null => ['n', 'u', 'l', 'l']
  | .bool true => ['t', 'r', 'u', 'e']
  | .bool false => ['f', 'a', 'l', 's', 'e']
  | .number n => printNumber n
  | .text s => printText s
  | .array items => '[' :: printItems items ++ [']']
  | .object members => '\x7b' :: printMembers members ++ ['\x7d']

def printItems : List Json → List Char
  | [] => []
  | [v] => print v
  | v :: w :: rest => print v ++ ',' :: printItems (w :: rest)

def printMembers : List (String × Json) → List Char
  | [] => []
  | [(name, v)] => printText name ++ ':' :: print v
  | (name, v) :: m :: rest => printText name ++ ':' :: print v ++ ',' :: printMembers (m :: rest)

end

def render (v : Json) : String := String.ofList (print v)

end Ensemble.Json
