import Ensemble.Posix.Lexer

/-!
# Reading scripts

A script is read one complete command after the other, so that everything before a fault can still
be run. Every function takes fuel: each round of them reads a token, and no more than five take
part in a round.
-/

namespace Ensemble.Posix

namespace Reader

/-- What is left to read, and the line it starts on. -/
structure Input where
  tokens : List Token
  line : Nat := 1

def reservedWords : List String :=
  ["if", "then", "else", "elif", "fi", "do", "done", "case", "esac", "while", "until", "for",
    "\x7b", "\x7d", "!", "in"]

def reserved? : Token → Option String
  | .word [.text s false] => if s ∈ reservedWords then some s else none
  | _ => none

def describeToken (t : Token) : String :=
  match reserved? t, t with
  | some s, _ => "\"" ++ s ++ "\""
  | _, .word _ => "word"
  | _, .operator s => if Lexer.startsRedirection s.toList then "redirection" else "\"" ++ s ++ "\""
  | _, .descriptor _ => "redirection"
  | _, .newline => "newline"
  | _, .document _ => "redirection"
  | _, .broken _ => "end of file"

namespace Input

def head? (i : Input) : Option Token := i.tokens.head?

def drop (i : Input) : Input :=
  match i.tokens with
  | .newline :: rest => ⟨rest, i.line + 1⟩
  | _ :: rest => ⟨rest, i.line⟩
  | [] => i

def skipNewlines (i : Input) : Input :=
  ⟨i.tokens.dropWhile (· == .newline), i.line + (i.tokens.takeWhile (· == .newline)).length⟩

def describe (i : Input) : String := (i.head?.map describeToken).getD "end of file"

def isAt (i : Input) (o : String) : Bool := i.head? == some (.operator o)

def isAtWord (i : Input) (s : String) : Bool := i.head?.bind reserved? == some s

def refuse (i : Input) : Except ScriptFault α :=
  match i.head? with
  | some (.broken fault) => .error fault
  | _ => .error (.unexpected i.describe)

def want (i : Input) (what : String) : Except ScriptFault α :=
  match i.head? with
  | some (.broken fault) => .error fault
  | _ => .error (.expected i.describe ("\"" ++ what ++ "\""))

def expectWord (i : Input) (s : String) : Except ScriptFault Input :=
  if i.isAtWord s then .ok i.drop
  else i.want s

def expect (i : Input) (o : String) : Except ScriptFault Input :=
  if i.isAt o then .ok i.drop
  else i.want o

def isAtEnd (i : Input) : Bool :=
  match i.head? with
  | none => true
  | some (.operator o) => o == ")" || o == ";;"
  | some t => (reserved? t).any fun s => s ∈ ["then", "else", "elif", "fi", "do", "done", "esac", "\x7d"]

end Input

def assignment? : Word → Option (String × Word)
  | .text s false :: rest =>
    let name := s.toList.takeWhile (· != '=')
    match s.toList.dropWhile (· != '=') with
    | _ :: value =>
      if Lexer.isName name then
        some (String.ofList name, if value.isEmpty then rest else .text (String.ofList value) false :: rest)
      else none
    | [] => none
  | _ => none

def directionOf : String → Option (Direction × Nat)
  | "<" => some (.read, 0)
  | ">" => some (.write, 1)
  | ">|" => some (.write, 1)
  | ">>" => some (.append, 1)
  | "<&" => some (.duplicate, 0)
  | ">&" => some (.duplicate, 1)
  | "<<" => some (.here, 0)
  | _ => none

def redirection? (i : Input) : Except ScriptFault (Option (Redirection × Input)) :=
  let (given, j) : Option Nat × Input := match i.head? with
    | some (.descriptor n) => (some n, i.drop)
    | _ => (none, i)
  match j.head? with
  | some (.operator o) =>
    match directionOf o with
    | none => .ok none
    | some (direction, usual) =>
      match j.drop.head? with
      | some (.word target) => .ok (some (⟨given.getD usual, direction, target⟩, j.drop.drop))
      | _ => j.drop.refuse
  | _ => .ok none

def redirections : Nat → Input → Except ScriptFault (List Redirection × Input)
  | 0, i => .ok ([], i)
  | fuel + 1, i => do
    match ← redirection? i with
    | none => return ([], i)
    | some (r, i) =>
      let (rs, i) ← redirections fuel i
      return (r :: rs, i)

def words : Nat → Input → List Word × Input
  | 0, i => ([], i)
  | fuel + 1, i =>
    match i.head? with
    | some (.word w) =>
      let (ws, i) := words fuel i.drop
      (w :: ws, i)
    | _ => ([], i)

structure Parts where
  assignments : List (String × Word) := []
  words : List Word := []
  redirections : List Redirection := []

def parts : Nat → Parts → Input → Except ScriptFault (Parts × Input)
  | 0, p, i => .ok (p, i)
  | fuel + 1, p, i => do
    match ← redirection? i with
    | some (r, i) => parts fuel { p with redirections := p.redirections ++ [r] } i
    | none =>
      match i.head? with
      | some (.word w) =>
        match if p.words.isEmpty then assignment? w else none with
        | some a => parts fuel { p with assignments := p.assignments ++ [a] } i.drop
        | none => parts fuel { p with words := p.words ++ [w] } i.drop
      | _ => return (p, i)

def withRedirections (body : Script) (rs : List Redirection) : Script :=
  if rs.isEmpty then body else .redirected body rs

def definition? (i : Input) : Option (String × Input) :=
  match i.tokens with
  | .word [.text name false] :: .operator "(" :: .operator ")" :: rest =>
    if Lexer.isName name.toList then some (name, ⟨rest, i.line⟩) else none
  | _ => none

def patterns : Nat → Input → Except ScriptFault (List Word × Input)
  | 0, i => i.refuse
  | fuel + 1, i =>
    match i.head? with
    | none => i.want ")"
    | some (.word w) =>
      if i.drop.isAt "|" then do
        let (ws, i) ← patterns fuel i.drop.drop
        return (w :: ws, i)
      else do return ([w], ← i.drop.expect ")")
    | _ => i.refuse

mutual

/-- Commands one after the other; with `lines` also over the end of a line. -/
def list (fuel : Nat) (lines : Bool) (i : Input) : Except ScriptFault (Script × Input) :=
  match fuel with
  | 0 => i.refuse
  | fuel + 1 => do
    let i := if lines then i.skipNewlines else i
    if lines && i.tokens.isEmpty then return (.empty, i)
    let (first, i) ← chain fuel i
    let first := if i.isAt "&" then .detached first else first
    let separated := i.isAt "&" || i.isAt ";"
    let j := if separated then i.drop else i
    let separated := separated || (lines && j.head? == some .newline)
    let j := if lines then j.skipNewlines else j
    if !separated || j.isAtEnd || j.head? == some .newline then return (first, j)
    else
      let (rest, j) ← list fuel lines j
      return (.sequence first rest, j)

/-- Pipelines joined by double signs, from left to right. -/
def chain (fuel : Nat) (i : Input) : Except ScriptFault (Script × Input) :=
  match fuel with
  | 0 => i.refuse
  | fuel + 1 => do
    let (first, i) ← pipeline fuel i
    joined fuel first i

def joined (fuel : Nat) (first : Script) (i : Input) : Except ScriptFault (Script × Input) :=
  match fuel with
  | 0 => i.refuse
  | fuel + 1 =>
    if i.isAt "&&" then do
      let (second, i) ← pipeline fuel i.drop.skipNewlines
      joined fuel (.both first second) i
    else if i.isAt "||" then do
      let (second, i) ← pipeline fuel i.drop.skipNewlines
      joined fuel (.either first second) i
    else .ok (first, i)

def pipeline (fuel : Nat) (i : Input) : Except ScriptFault (Script × Input) :=
  match fuel with
  | 0 => i.refuse
  | fuel + 1 =>
    if i.isAtWord "!" then do
      let (body, i) ← pipeline fuel i.drop
      return (.not body, i)
    else do
      let (first, i) ← command fuel i
      piped fuel first i

def piped (fuel : Nat) (first : Script) (i : Input) : Except ScriptFault (Script × Input) :=
  match fuel with
  | 0 => i.refuse
  | fuel + 1 =>
    if i.isAt "|" then do
      let (second, i) ← command fuel i.drop.skipNewlines
      piped fuel (.pipe first second) i
    else .ok (first, i)

def conditional (fuel : Nat) (i : Input) : Except ScriptFault (Script × Input) :=
  match fuel with
  | 0 => i.refuse
  | fuel + 1 => do
    let (condition, i) ← list fuel true i
    let (yes, i) ← list fuel true (← i.expectWord "then")
    if i.isAtWord "elif" then
      let (no, i) ← conditional fuel i.drop
      return (.choice condition yes no, i)
    else if i.isAtWord "else" then
      let (no, i) ← list fuel true i.drop
      return (.choice condition yes no, ← i.expectWord "fi")
    else return (.choice condition yes .empty, ← i.expectWord "fi")

def arms (fuel : Nat) (i : Input) : Except ScriptFault (Script × Input) :=
  match fuel with
  | 0 => i.refuse
  | fuel + 1 =>
    let i := i.skipNewlines
    if i.isAtWord "esac" then .ok (.empty, i.drop)
    else do
      let (ps, i) ← patterns fuel (if i.isAt "(" then i.drop else i)
      let i := i.skipNewlines
      let (body, i) ← if i.isAt ";;" || i.isAtWord "esac" then .ok (.empty, i) else list fuel true i
      if i.isAt ";;" then
        let (others, i) ← arms fuel i.drop
        return (.arm ps body others, i)
      else return (.arm ps body .empty, ← i.expectWord "esac")

def loopBody (fuel : Nat) (i : Input) : Except ScriptFault (Script × Input) :=
  match fuel with
  | 0 => i.refuse
  | fuel + 1 => do
    let (body, i) ← list fuel true (← i.skipNewlines.expectWord "do")
    return (body, ← i.expectWord "done")

/-- A command that begins with a reserved word or a bracket. -/
def compound (fuel : Nat) (i : Input) : Except ScriptFault (Script × Input) :=
  match fuel with
  | 0 => i.refuse
  | fuel + 1 =>
    if i.isAt "(" then do
      let (body, i) ← list fuel true i.drop
      return (.subshell body, ← i.expect ")")
    else if i.isAtWord "\x7b" then do
      let (body, i) ← list fuel true i.drop
      return (body, ← i.expectWord "\x7d")
    else if i.isAtWord "if" then conditional fuel i.drop
    else if i.isAtWord "while" || i.isAtWord "until" then do
      let (condition, j) ← list fuel true i.drop
      let (body, j) ← loopBody fuel j
      return (.repeat_ (i.isAtWord "until") condition body, j)
    else if i.isAtWord "for" then
      match i.drop.head? with
      | some (.word [.text name false]) => do
        let j := i.drop.drop.skipNewlines
        if j.isAtWord "in" then
          let (ws, j) := words j.tokens.length j.drop
          if j.isAt ";" || j.head? == some .newline then
            let (body, j) ← loopBody fuel j.drop
            return (.each name true ws body, j)
          else j.refuse
        else
          let (body, j) ← loopBody fuel (if j.isAt ";" then j.drop else j)
          return (.each name false [] body, j)
      | _ => .error .badLoopVariable
    else if i.isAtWord "case" then
      match i.drop.head? with
      | some (.word subject) => do
        let (body, j) ← arms fuel (← i.drop.drop.skipNewlines.expectWord "in")
        return (.select subject body, j)
      | _ => i.drop.refuse
    else i.refuse

def command (fuel : Nat) (i : Input) : Except ScriptFault (Script × Input) :=
  match fuel with
  | 0 => i.refuse
  | fuel + 1 =>
    match definition? i with
    | some (name, j) => do
      let (body, j) ← command fuel j.skipNewlines
      return (.define name body, j)
    | none =>
      if i.isAt "(" || (i.head?.bind reserved?).isSome then do
        let (body, j) ← compound fuel i
        let (rs, j) ← redirections j.tokens.length j
        return (withRedirections body rs, j)
      else do
        let (p, j) ← parts (i.tokens.length + 1) {} i
        if p.assignments.isEmpty && p.words.isEmpty && p.redirections.isEmpty then i.refuse
        else return (.simple i.line p.assignments p.words p.redirections, j)

end

/-- The complete commands, one line after the other, and the fault behind them with its line. -/
def program (fuel : Nat) (i : Input) : List Script × Option (ScriptFault × Nat) :=
  match fuel with
  | 0 => ([], none)
  | fuel + 1 =>
    let i := i.skipNewlines
    match i.tokens with
    | [] => ([], none)
    | ts =>
      match list (8 * ts.length + 16) false i with
      | .error fault => ([], some (fault, i.line))
      | .ok (s, j) =>
        match j.head? with
        | none => ([s], none)
        | some .newline =>
          let (ss, fault) := program fuel j
          (s :: ss, fault)
        | some _ =>
          match (j.refuse : Except ScriptFault Unit) with
          | .error fault => ([], some (fault, j.line))
          | .ok _ => ([s], none)

end Reader

def readScript (s : String) : List Script × Option (ScriptFault × Nat) :=
  let tokens := Lexer.run s
  Reader.program (tokens.length + 1) ⟨tokens, 1⟩

end Ensemble.Posix
