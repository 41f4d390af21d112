import Ensemble.Toml.Basic
import Ensemble.Toml.Text

/-!
# Writing settings files

A file is a list of sections with an empty line between them: a header and the pairs below it.
-/

namespace Ensemble.Toml

/-- Every float is written in places. A float that is no number has no sign. -/
def floatLayout : Decimal.Layout where
  places _ := true
  exponentMark _ := ""
  nan _ := "nan"
  infinity negative := if negative then "-inf" else "inf"

inductive Entry where
  | text (s : String)
  | nat (n : Nat)
  | float (x : Float)
  | bool (b : Bool)
  | texts (items : List String)

def printTextLine (s : String) : List Char := "    ".toList ++ printText s.toList ++ [',', '\n']

/-- Two texts or more take a line each. -/
def printTexts : List String → List Char
  | [] => ['[', ']']
  | [s] => '[' :: printText s.toList ++ [']']
  | items => '[' :: '\n' :: items.flatMap printTextLine ++ [']']

def Entry.print : Entry → List Char
  | .text s => printText s.toList
  | .nat n => Nat.toDigits 10 n
  | .float x => (floatLayout.float x).toList
  | .bool b => (if b then "true" else "false").toList
  | .texts items => printTexts items

structure Section where
  path : List String
  /-- One of a list of tables. -/
  listed : Bool := false
  entries : List (String × Entry)

def printPath (path : List String) : List Char :=
  ['.'].intercalate (path.map fun k => printKey k.toList)

def Section.printHeader (s : Section) : List Char :=
  if s.listed then '[' :: '[' :: printPath s.path ++ [']', ']', '\n']
  else '[' :: printPath s.path ++ [']', '\n']

def printEntry (entry : String × Entry) : List Char :=
  printKey entry.1.toList ++ [' ', '=', ' '] ++ entry.2.print ++ ['\n']

def Section.print (s : Section) : List Char := s.printHeader ++ s.entries.flatMap printEntry

def printSections (sections : List Section) : List Char :=
  ['\n'].intercalate (sections.map Section.print)

def render (sections : List Section) : String := String.ofList (printSections sections)

/-- No file holds a greater number. -/
def maxWhole : Nat := 0x7FFFFFFFFFFFFFFF

def Entry.isWritable : Entry → Bool
  | .nat n => n ≤ maxWhole
  | .text _ | .float _ | .bool _ | .texts _ => true

def Section.isWritable (s : Section) : Bool := s.entries.all (·.2.isWritable)

/-- Nothing is written when a number is too great for a file. -/
def render? (sections : List Section) : Option String :=
  if sections.all Section.isWritable then some (render sections) else none

end Ensemble.Toml
