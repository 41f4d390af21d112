import Ensemble.Posix.Arithmetic
import Ensemble.Posix.Files
import Ensemble.Posix.Pattern

/-!
# Expansion of words

A word becomes any number of fields: parameters and arithmetic are replaced by their values, values
outside of quotes are split at blanks, and fields that are patterns become the names of files.
-/

namespace Ensemble.Posix

structure Variable where
  value : String
  /-- Handed to the programs that are started. -/
  exported : Bool := false
  readOnly : Bool := false

structure Environment where
  /-- The zeroth parameter. -/
  name : String := "sh"
  parameters : List String := []
  bindings : List (String × Variable) := []
  functions : List (String × Script) := []
  /-- What to do on signals; an empty action ignores them. Zero stands for the end. -/
  traps : List (Nat × String) := []
  status : Nat := 0
  pid : Nat := 0
  /-- The process nobody waits for that was started last. -/
  lastDetached : Option Nat := none
  directory : Path := []
  /-- The letters of the options that are on. -/
  options : List Char := []

namespace Environment

def has (e : Environment) (option : Char) : Bool := e.options.contains option

def separators (e : Environment) : List Char :=
  match e.bindings.lookup "IFS" with
  | some v => v.value.toList
  | none => [' ', '\t', '\n']

def allParameters (e : Environment) : String :=
  (String.ofList (e.separators.take 1)).intercalate e.parameters

def value? (e : Environment) (name : String) : Option String :=
  match name with
  | "?" => some (toString e.status)
  | "$" => some (toString e.pid)
  | "#" => some (toString e.parameters.length)
  | "!" => e.lastDetached.map toString
  | "-" => some (String.ofList e.options)
  | "0" => some e.name
  | "@" | "*" => if e.parameters.isEmpty then none else some e.allParameters
  | _ =>
    match name.toNat? with
    | some n => e.parameters[n - 1]?
    | none => (e.bindings.lookup name).map (·.value)

/-- Gives a variable a value; it stays exported if it was. -/
def assign (e : Environment) (name value : String) : Environment :=
  let old := (e.bindings.lookup name).getD ⟨"", false, false⟩
  { e with bindings := e.bindings.filter (fun v => v.1 != name) ++ [(name, { old with value })] }

def unset (e : Environment) (name : String) : Environment :=
  { e with bindings := e.bindings.filter fun v => v.1 != name }

/-- Changes how a variable is kept; one that is missing is empty. -/
def mark (e : Environment) (name : String) (f : Variable → Variable) : Environment :=
  let v := (e.bindings.lookup name).getD ⟨"", false, false⟩
  { e with bindings := e.bindings.filter (fun v => v.1 != name) ++ [(name, f v)] }

def restore (e : Environment) (name : String) (old : Option Variable) : Environment :=
  { e with
    bindings := e.bindings.filter (fun v => v.1 != name) ++ (old.map fun v => (name, v)).toList }

def isReadOnly (e : Environment) (name : String) : Bool :=
  ((e.bindings.lookup name).map (·.readOnly)).getD false

def exported (e : Environment) : List (String × String) :=
  (e.bindings.filter (·.2.exported)).map fun v => (v.1, v.2.value)

end Environment

namespace Expansion

inductive Fault where
  | badSubstitution
  | arithmetic (fault : Arithmetic.Fault) (source : String)
  | parameter (name message : String)

def Fault.message : Fault → String
  | .badSubstitution => "Bad substitution"
  | .arithmetic .divisionByZero source => "arithmetic expression: division by zero: \"" ++ source ++ "\""
  | .arithmetic .expectingPrimary source =>
    "arithmetic expression: expecting primary: \"" ++ source ++ "\""
  | .arithmetic .expectingEnd source => "arithmetic expression: expecting EOF: \"" ++ source ++ "\""
  | .arithmetic (.illegalNumber s) _ => "Illegal number: " ++ s
  | .parameter name message => name ++ ": " ++ message

inductive Fragment where
  | glyphs (gs : List Glyph)
  /-- To be split at separators. -/
  | loose (s : String)
  /-- A field each. -/
  | fields (xs : List String)
  /-- A field ends here. -/
  | gap

def valueFragment (s : String) (quoted : Bool) : Fragment :=
  if quoted then .glyphs (glyphs s true) else .loose s

def fragmentGlyphs : Fragment → List Glyph
  | .glyphs gs => gs
  | .loose s => glyphs s false
  | .fields xs => glyphs (" ".intercalate xs) true
  | .gap => glyphs " " false

def fragmentsText (fs : List Fragment) : String := Glyph.textOf (fs.flatMap fragmentGlyphs)

/-- A text outside of quotes is split like a value. -/
def loosen : Piece → Piece
  | .text s false => .value s false
  | p => p

def readInner (source : String) (quoted : Bool) : Word :=
  let cs := source.toList
  let read := if quoted then
      (Lexer.doubleQuoted (cs.length + 2) (Lexer.dropQuotes cs ++ ['"'])).map (·.1)
    else (Lexer.wholeWord (cs.length + 1) cs).map (·.map loosen)
  match read with
  | .ok w => w
  | .error _ => [.text source quoted]

/-- Present, and with `colon` not empty. -/
def isSet (e : Environment) (name : String) (colon : Bool) : Bool :=
  match e.value? name with
  | some v => !colon || !v.isEmpty
  | none => false

/-- A parameter that should have a value and has none. -/
def missing (e : Environment) (name : String) : Bool :=
  e.has 'u' && name != "@" && name != "*" && (e.value? name).isNone

def notSet (colon : Bool) : String :=
  if colon then "parameter not set or null" else "parameter not set"

def numberOf (e : Environment) (name : String) : Except Arithmetic.Fault Int :=
  match e.value? name with
  | none => .ok 0
  | some v =>
    if v.isEmpty then .ok 0
    else match Arithmetic.number? v with
      | some n => .ok n
      | none => .error (.illegalNumber v)

mutual

/-- The fragments of a word. `depth` bounds how deep substitutions stand in one another. -/
def word (depth : Nat) (e : Environment) : Word → Except Fault (List Fragment × Environment)
  | [] => .ok ([], e)
  | p :: rest => do
    let (fs, e) ← piece depth e p
    let (gs, e) ← word depth e rest
    return (fs ++ gs, e)
termination_by w => (depth, 2, w.length)

def piece (depth : Nat) (e : Environment) (p : Piece) : Except Fault (List Fragment × Environment) :=
  match p with
  | .text s quoted => .ok ([.glyphs (glyphs s quoted)], e)
  | .value s quoted => .ok ([valueFragment s quoted], e)
  | .senseless => .error .badSubstitution
  | .output _ _ => .ok ([], e)
  | .arithmetic source quoted => do
    let (source, e) ← inner depth e source true
    let text := fragmentsText source
    match Arithmetic.evaluate (numberOf e) text with
    | .ok (n, assigned) =>
      let e := assigned.foldl (fun e a => e.assign a.1 (toString a.2)) e
      return ([valueFragment (toString n) quoted], e)
    | .error fault => throw (.arithmetic fault text)
  | .parameter name use quoted =>
    let value := (e.value? name).getD ""
    let shown := valueFragment value quoted
    match use with
    | .plain =>
      if missing e name then .error (.parameter name (notSet false))
      else if name = "@" ∨ (name = "*" ∧ !quoted) then
        .ok (if quoted then [.fields e.parameters]
          else (e.parameters.map Fragment.loose).intersperse .gap, e)
      else .ok ([shown], e)
    | .size =>
      if missing e name then .error (.parameter name (notSet false))
      else .ok ([valueFragment (toString value.length) quoted], e)
    | .orElse colon w =>
      if isSet e name colon then .ok ([shown], e)
      else do
        inner depth e w quoted
    | .orAssign colon w =>
      if isSet e name colon then .ok ([shown], e)
      else do
        let (fs, e) ← inner depth e w quoted
        let value := fragmentsText fs
        return ([valueFragment value quoted], e.assign name value)
    | .orFail colon w =>
      if isSet e name colon then .ok ([shown], e)
      else do
        let (fs, _) ← inner depth e w quoted
        throw (.parameter name (if fs.isEmpty then notSet colon else fragmentsText fs))
    | .ifSet colon w =>
      if isSet e name colon then inner depth e w quoted else .ok ([], e)
    | .dropStart longest w => do
      let (fs, e) ← inner depth e w false
      let cut := Pattern.dropStart (Pattern.ofGlyphs (fs.flatMap fragmentGlyphs)) longest value.toList
      return ([valueFragment (String.ofList cut) quoted], e)
    | .dropEnd longest w => do
      let (fs, e) ← inner depth e w false
      let cut := Pattern.dropEnd (Pattern.ofGlyphs (fs.flatMap fragmentGlyphs)) longest value.toList
      return ([valueFragment (String.ofList cut) quoted], e)
termination_by (depth, 1, 0)

def inner (depth : Nat) (e : Environment) (source : String) (quoted : Bool) :
    Except Fault (List Fragment × Environment) :=
  match depth with
  | 0 => .ok ([valueFragment source quoted], e)
  | depth + 1 => word depth e (readInner source quoted)
termination_by (depth, 0, 0)

end

def maxDepth : Nat := 16

structure Fields where
  done : List (List Glyph) := []
  current : Option (List Glyph) := none
  /-- A blank closed the last field, so that another separator does not make an empty one. -/
  spaced : Bool := false

namespace Fields

def close (f : Fields) : Fields :=
  match f.current with
  | some gs => ⟨gs :: f.done, none, false⟩
  | none => f

def add (f : Fields) (gs : List Glyph) : Fields :=
  { f with current := some (f.current.getD [] ++ gs), spaced := false }

def isBlank (c : Char) : Bool := c == ' ' || c == '\t' || c == '\n'

/-- Any number of blanks close a field, and so does another separator with the blanks around it. -/
def separate (f : Fields) (c : Char) : Fields :=
  if f.current.isSome then { f.close with spaced := isBlank c }
  else if isBlank c then f
  else if f.spaced then { f with spaced := false }
  else (f.add []).close

def split (separators : List Char) (f : Fields) (fuel : Nat) (cs : List Char) : Fields :=
  match fuel, cs with
  | 0, _ => f
  | _, [] => f
  | fuel + 1, c :: rest =>
    if separators.contains c then split separators (f.separate c) fuel rest
    else
      let run := c :: rest.takeWhile (!separators.contains ·)
      split separators (f.add (run.map (⟨·, false⟩))) fuel (rest.dropWhile (!separators.contains ·))

def addFields (f : Fields) : List String → Fields
  | [] => f
  | x :: rest => rest.foldl (fun f x => f.close.add (glyphs x true)) (f.add (glyphs x true))

def addFragment (separators : List Char) (f : Fields) : Fragment → Fields
  | .glyphs gs => f.add gs
  | .loose s => f.split separators (s.length + 1) s.toList
  | .fields xs => f.addFields xs
  | .gap => f.close

def toList (f : Fields) : List (List Glyph) := f.close.done.reverse

end Fields

/-- The files whose names have the form of a field in one directory, or the field itself. -/
def pathnames (files : Files) (directory : Path) (gs : List Glyph) : List String :=
  let last := (gs.reverse.takeWhile (fun g => g.char != '/')).reverse
  let lead := Glyph.textOf (gs.take (gs.length - last.length))
  let p := Pattern.ofGlyphs last
  if !Pattern.isProper p then [Glyph.textOf gs]
  else
    let names := match files.findDirectory directory (if lead.isEmpty then "." else lead) with
      | .ok d => files.names d
      | .error _ => []
    let hidden := last.head?.map (·.char) == some '.'
    let found := names.filter fun n =>
      (hidden || n.toList.head? != some '.') && Pattern.accepts p n.toList
    if found.isEmpty then [Glyph.textOf gs] else found.map (lead ++ ·)

def expandHome (e : Environment) : Word → Word
  | .text s false :: rest =>
    match s.toList, e.value? "HOME" with
    | ['~'], some home => if rest.isEmpty then [.text home true] else .text s false :: rest
    | '~' :: '/' :: more, some home =>
      .text home true :: .text (String.ofList ('/' :: more)) false :: rest
    | _, _ => .text s false :: rest
  | w => w

def fields (files : Files) (e : Environment) : List Word → Except Fault (List String × Environment)
  | [] => .ok ([], e)
  | w :: rest => do
    let (fs, e) ← word maxDepth e (expandHome e w)
    let own := (fs.foldl (Fields.addFragment e.separators) {}).toList
    let named := if e.has 'f' then own.map Glyph.textOf else own.flatMap (pathnames files e.directory)
    let (more, e) ← fields files e rest
    return (named ++ more, e)

def single (e : Environment) (w : Word) : Except Fault (String × Environment) := do
  let (fs, e) ← word maxDepth e (expandHome e w)
  return (fragmentsText fs, e)

def pattern (e : Environment) (w : Word) : Except Fault (List Pattern.Item × Environment) := do
  let (fs, e) ← word maxDepth e w
  return (Pattern.ofGlyphs (fs.flatMap fragmentGlyphs), e)

end Expansion

end Ensemble.Posix
