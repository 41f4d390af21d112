import Ensemble.Posix.Script

/-!
# Words and operators of scripts
-/

namespace Ensemble.Posix

inductive Token where
  | word (w : Word)
  | operator (s : String)
  /-- A number right before a redirection. -/
  | descriptor (n : Nat)
  | newline
  /-- The text of a document that was announced on the line. -/
  | document (w : Word)
  /-- Nothing can be read from here on. -/
  | broken (fault : ScriptFault)
deriving DecidableEq

namespace Lexer

/-- Reads up to the quote, which is not part of what is read. -/
def upTo (quote : Char) (cs : List Char) : Option (List Char × List Char) :=
  match cs.dropWhile (· != quote) with
  | [] => none
  | _ :: rest => some (cs.takeWhile (· != quote), rest)

/-- Reads up to the bracket that closes `depth` open ones. Brackets in quotes do not count;
`quote` is the one that is open. -/
def upToClosing (opening closing : Char) (depth : Nat) (quote : Option Char) :
    List Char → Option (List Char × List Char)
  | [] => none
  | '\\' :: c :: rest =>
    if quote = some '\'' then
      (upToClosing opening closing depth (if c = '\'' then none else quote) rest).map
        fun (cs, r) => ('\\' :: c :: cs, r)
    else (upToClosing opening closing depth quote rest).map fun (cs, r) => ('\\' :: c :: cs, r)
  | c :: rest =>
    let go (depth : Nat) (quote : Option Char) :=
      (upToClosing opening closing depth quote rest).map fun (cs, r) => (c :: cs, r)
    match quote with
    | some q => go depth (if c = q then none else quote)
    | none =>
      if c = '\'' ∨ c = '"' then go depth (some c)
      else if c = opening then go (depth + 1) none
      else if c = closing then if depth = 0 then some ([], rest) else go (depth - 1) none
      else go depth none

/-- Reads up to a back quote; a backslash takes the meaning from the next one. -/
def upToBackquote : List Char → Option (List Char × List Char)
  | [] => none
  | '\\' :: c :: rest =>
    (upToBackquote rest).map fun (cs, r) =>
      (if c = '`' ∨ c = '\\' ∨ c = '$' then (c :: cs, r) else ('\\' :: c :: cs, r))
  | c :: rest =>
    if c = '`' then some ([], rest) else (upToBackquote rest).map fun (cs, r) => (c :: cs, r)

def isNameStart (c : Char) : Bool := c.isAlpha || c == '_'

def isNameChar (c : Char) : Bool := c.isAlphanum || c == '_'

def isName (cs : List Char) : Bool :=
  match cs with
  | [] => false
  | c :: rest => isNameStart c && rest.all isNameChar

def isSpecial (c : Char) : Bool := "@*#?-$!".toList.contains c

def useOf (rest : List Char) : Option Use :=
  match rest with
  | [] => some .plain
  | ':' :: '-' :: w => some (.orElse true (String.ofList w))
  | '-' :: w => some (.orElse false (String.ofList w))
  | ':' :: '=' :: w => some (.orAssign true (String.ofList w))
  | '=' :: w => some (.orAssign false (String.ofList w))
  | ':' :: '?' :: w => some (.orFail true (String.ofList w))
  | '?' :: w => some (.orFail false (String.ofList w))
  | ':' :: '+' :: w => some (.ifSet true (String.ofList w))
  | '+' :: w => some (.ifSet false (String.ofList w))
  | '#' :: '#' :: w => some (.dropStart true (String.ofList w))
  | '#' :: w => some (.dropStart false (String.ofList w))
  | '%' :: '%' :: w => some (.dropEnd true (String.ofList w))
  | '%' :: w => some (.dropEnd false (String.ofList w))
  | _ => none

def splitName (cs : List Char) : List Char × List Char :=
  match cs with
  | [] => ([], [])
  | c :: rest =>
    if isNameStart c then (cs.takeWhile isNameChar, cs.dropWhile isNameChar)
    else if c.isDigit then (cs.takeWhile Char.isDigit, cs.dropWhile Char.isDigit)
    else if isSpecial c then ([c], rest)
    else ([], cs)

def braced (inside : List Char) (quoted : Bool) : Piece :=
  match inside with
  | '#' :: c :: rest =>
    let (name, more) := splitName (c :: rest)
    if !name.isEmpty && more.isEmpty then .parameter (String.ofList name) .size quoted else .senseless
  | cs =>
    let (name, more) := splitName cs
    match useOf more with
    | some use => if name.isEmpty then .senseless else .parameter (String.ofList name) use quoted
    | none => .senseless

def dollar (quoted : Bool) (cs : List Char) : Except ScriptFault (Piece × List Char) :=
  match cs with
  | '(' :: '(' :: rest =>
    match upToClosing '(' ')' 1 none rest with
    | some (inside, r) => .ok (.arithmetic (String.ofList inside.dropLast) quoted, r)
    | none => .error .missingBrackets
  | '(' :: rest =>
    match upToClosing '(' ')' 0 none rest with
    | some (inside, r) => .ok (.output (String.ofList inside) quoted, r)
    | none => .error (.expected "end of file" "\")\"")
  | '\x7b' :: rest =>
    match upToClosing '\x7b' '\x7d' 0 none rest with
    | some (inside, r) => .ok (braced inside quoted, r)
    | none => .error (if quoted then .unterminatedQuote else .missingBrace)
  | c :: rest =>
    if isNameStart c then
      .ok (.parameter (String.ofList (cs.takeWhile isNameChar)) .plain quoted,
        cs.dropWhile isNameChar)
    else if c.isDigit || isSpecial c then .ok (.parameter (String.singleton c) .plain quoted, rest)
    else .ok (.text "$" quoted, cs)
  | [] => .ok (.text "$" quoted, [])

def isPlainInQuotes (c : Char) : Bool := c != '"' && c != '\\' && c != '$' && c != '`'

/-- The rest of a text in double quotes, or with `whole` a text to its end, in which quotes stand
for themselves. Each step takes a character at least, so the length of the text is fuel enough. -/
def quotedText (whole : Bool) (fuel : Nat) (cs : List Char) : Except ScriptFault (Word × List Char) :=
  match fuel, cs with
  | 0, _ => .error .unterminatedQuote
  | _, [] => if whole then .ok ([], []) else .error .unterminatedQuote
  | fuel + 1, '\\' :: '\n' :: rest => quotedText whole fuel rest
  | fuel + 1, '\\' :: c :: rest => do
    let literal := if c ∈ ['$', '`', '\\'] ∨ (c = '"' ∧ !whole) then String.singleton c
      else String.ofList ['\\', c]
    let (w, r) ← quotedText whole fuel rest
    return (.text literal true :: w, r)
  | fuel + 1, '$' :: rest => do
    let (p, r) ← dollar true rest
    let (w, r) ← quotedText whole fuel r
    return (p :: w, r)
  | fuel + 1, '`' :: rest =>
    match upToBackquote rest with
    | none => .error .unclosedBackquote
    | some (inside, r) => do
      let (w, r) ← quotedText whole fuel r
      return (.output (String.ofList inside) true :: w, r)
  | fuel + 1, c :: rest =>
    if c = '"' ∧ !whole then .ok ([], rest)
    else do
      let (w, r) ← quotedText whole fuel (rest.dropWhile isPlainInQuotes)
      return (.text (String.ofList (c :: rest.takeWhile isPlainInQuotes)) true :: w, r)

def doubleQuoted : Nat → List Char → Except ScriptFault (Word × List Char) := quotedText false

def dropQuotes : List Char → List Char
  | '\\' :: c :: rest => '\\' :: c :: dropQuotes rest
  | c :: rest => if c = '"' then dropQuotes rest else c :: dropQuotes rest
  | [] => []

def endsWord (c : Char) : Bool := " \t\n;&|<>()".toList.contains c

def isPlainInWord (c : Char) : Bool := isPlainInQuotes c && c != '\'' && !endsWord c

def word (fuel : Nat) (cs : List Char) : Except ScriptFault (Word × List Char) :=
  match fuel, cs with
  | 0, _ => .ok ([], cs)
  | _, [] => .ok ([], [])
  | fuel + 1, '\'' :: rest =>
    match upTo '\'' rest with
    | none => .error .unterminatedQuote
    | some (inside, r) => do
      let (w, r) ← word fuel r
      return (.text (String.ofList inside) true :: w, r)
  | fuel + 1, '"' :: rest => do
    let (inside, r) ← doubleQuoted (rest.length + 1) rest
    let (w, r) ← word fuel r
    return ((if inside.isEmpty then [.text "" true] else inside) ++ w, r)
  | fuel + 1, '\\' :: '\n' :: rest => word fuel rest
  | fuel + 1, '\\' :: c :: rest => do
    let (w, r) ← word fuel rest
    return (.text (String.singleton c) true :: w, r)
  | fuel + 1, '$' :: rest => do
    let (p, r) ← dollar false rest
    let (w, r) ← word fuel r
    return (p :: w, r)
  | fuel + 1, '`' :: rest =>
    match upToBackquote rest with
    | none => .error .unclosedBackquote
    | some (inside, r) => do
      let (w, r) ← word fuel r
      return (.output (String.ofList inside) false :: w, r)
  | fuel + 1, c :: rest =>
    if endsWord c then .ok ([], cs)
    else do
      let (w, r) ← word fuel (rest.dropWhile isPlainInWord)
      return (.text (String.ofList (c :: rest.takeWhile isPlainInWord)) false :: w, r)

/-- A whole text as a word, in which nothing ends it. -/
def wholeWord (fuel : Nat) (cs : List Char) : Except ScriptFault Word :=
  match fuel with
  | 0 => .ok []
  | fuel + 1 => do
    let (w, r) ← word (cs.length + 1) cs
    match r with
    | [] => return w
    | c :: rest => return w ++ .text (String.singleton c) false :: (← wholeWord fuel rest)

def operators : List String :=
  ["<<-", "&&", "||", ";;", ">>", "<<", ">&", "<&", ">|", ";", "&", "|", "<", ">", "(", ")"]

def operator? (cs : List Char) : Option (String × List Char) :=
  (operators.find? fun o => o.toList.isPrefixOf cs).map fun o => (o, cs.drop o.length)

def startsRedirection (cs : List Char) : Bool :=
  match cs with
  | c :: _ => c == '<' || c == '>'
  | [] => false

/-- A document that begins on the next line and ends with the line `delimiter`. -/
structure Announcement where
  delimiter : List Char
  /-- Nothing in it is expanded. -/
  literal : Bool
  /-- Tabs at the starts of lines do not count. -/
  indented : Bool

def Announcement.of (indented : Bool) (w : Word) : Announcement :=
  let texts := w.filterMap fun
    | .text s quoted => some (s, quoted)
    | _ => none
  { delimiter := (String.join (texts.map (·.1))).toList, literal := texts.any (·.2), indented }

def Announcement.lines (a : Announcement) (fuel : Nat) (cs : List Char) : List Char × List Char :=
  match fuel, cs with
  | 0, _ => ([], cs)
  | _, [] => ([], [])
  | fuel + 1, cs =>
    let line := cs.takeWhile (· != '\n')
    let rest := (cs.drop line.length).drop 1
    let shown := if a.indented then line.dropWhile (· == '\t') else line
    if shown = a.delimiter then ([], rest)
    else
      let (more, rest) := a.lines fuel rest
      (shown ++ '\n' :: more, rest)

def Announcement.read (a : Announcement) (cs : List Char) : Token × List Char :=
  let (body, rest) := a.lines (cs.length + 1) cs
  if a.literal then (.document [.text (String.ofList body) true], rest)
  else
    match quotedText true (body.length + 1) body with
    | .ok (w, _) => (.document w, rest)
    | .error fault => (.broken fault, rest)

def documents : List Announcement → List Char → List Token × List Char
  | [], cs => ([], cs)
  | a :: more, cs =>
    let (t, cs) := a.read cs
    let (ts, cs) := documents more cs
    (t :: ts, cs)

/-- The tokens of a text; the last one tells what is wrong, if something is. Documents that were
announced on a line stand before its end. -/
def tokens (fuel : Nat) (announced : List Announcement) (cs : List Char) : List Token :=
  match fuel, cs with
  | 0, _ => []
  | _, [] => announced.map fun _ => .document []
  | fuel + 1, '\\' :: '\n' :: rest => tokens fuel announced rest
  | fuel + 1, c :: rest =>
    if c = ' ' ∨ c = '\t' then tokens fuel announced rest
    else if c = '\n' then
      let (ts, rest) := documents announced rest
      ts ++ .newline :: tokens fuel [] rest
    else if c = '#' then tokens fuel announced (rest.dropWhile (· != '\n'))
    else
      match operator? cs with
      | some (o, r) =>
        if o = "<<" ∨ o = "<<-" then
          let r := r.dropWhile fun c => c == ' ' || c == '\t'
          match word (r.length + 1) r with
          | .error fault => [.broken fault]
          | .ok ([], r) => .operator "<<" :: tokens fuel announced r
          | .ok (w, r) =>
            .operator "<<" :: .word w :: tokens fuel (announced ++ [.of (o = "<<-") w]) r
        else .operator o :: tokens fuel announced r
      | none =>
        let number := cs.takeWhile Char.isDigit
        let behind := cs.dropWhile Char.isDigit
        if !number.isEmpty && startsRedirection behind then
          .descriptor ((String.ofList number).toNat?.getD 0) :: tokens fuel announced behind
        else
          match word (cs.length + 1) cs with
          | .error fault => [.broken fault]
          | .ok (w, r) => .word w :: tokens fuel announced r

def takeDocument : List Token → Option (Word × List Token)
  | [] => none
  | .document w :: rest => some (w, rest)
  | t :: rest => (takeDocument rest).map fun (w, rest) => (w, t :: rest)

def withDocuments (fuel : Nat) (ts : List Token) : List Token :=
  match fuel, ts with
  | fuel + 1, .operator "<<" :: .word w :: rest =>
    match takeDocument rest with
    | some (body, rest) => .operator "<<" :: .word body :: withDocuments fuel rest
    | none => .operator "<<" :: .word w :: withDocuments fuel rest
  | fuel + 1, t :: rest => t :: withDocuments fuel rest
  | _, ts => ts

def run (s : String) : List Token :=
  let ts := tokens (s.length + 1) [] s.toList
  withDocuments ts.length ts

end Lexer

end Ensemble.Posix
