import Ensemble.Posix.Format

/-!
# Programs of awk that read nothing

A program has one block that runs before any input. Numbers are whole.
-/

namespace Ensemble.Posix.Awk

inductive Value where
  | number (n : Int)
  | text (s : String)
deriving DecidableEq

inductive Expression where
  | literal (v : Value)
  | variable (name : String)
  | binary (o : String) (a b : Expression)
  | negation (a : Expression)
  | size (a : Expression)
  /-- Assigns, and has the new value. -/
  | assign (name : String) (value : Expression)
  /-- Adds to a variable, and has the old value. -/
  | increase (name : String) (amount : Int)
deriving DecidableEq

inductive Statement where
  | skip
  | sequence (first second : Statement)
  | evaluate (e : Expression)
  | print (arguments : List Expression) (target : Option Expression)
  | printf (arguments : List Expression) (target : Option Expression)
  | choice (condition : Expression) (yes no : Statement)
  /-- Runs `step` behind each round of the body. -/
  | loop (condition : Expression) (body step : Statement)
  | exit (status : Expression)
  /-- Ends the innermost loop. -/
  | leave
  /-- Ends a round of the innermost loop. -/
  | next
deriving DecidableEq

/-! ## Reading -/

inductive Token where
  | number (n : Int)
  | text (s : String)
  | name (s : String)
  | sign (s : String)
deriving DecidableEq

def signs : List String :=
  ["++", "--", "+=", "-=", "*=", "/=", "%=", "==", "!=", "<=", ">=", "&&", "||", "+", "-", "*", "/", "%",
    "<", ">", "=", "!", "(", ")", "\x7b", "\x7d", ";", ","]

def quoted (fuel : Nat) (cs : List Char) : Option (List Char × List Char) :=
  match fuel, cs with
  | 0, _ => none
  | _, [] => none
  | _, '"' :: rest => some ([], rest)
  | fuel + 1, '\\' :: '"' :: rest => (quoted fuel rest).map fun (s, r) => ('"' :: s, r)
  | fuel + 1, '\\' :: '/' :: rest => (quoted fuel rest).map fun (s, r) => ('/' :: s, r)
  | fuel + 1, '\\' :: rest =>
    let (bytes, r) := Format.escape false rest
    (quoted fuel r).map fun (s, r) => (bytes.map (fun b => Char.ofNat b.toNat) ++ s, r)
  | fuel + 1, c :: rest =>
    (quoted fuel rest).map fun (s, r) =>
      ((Text.Utf8.encode (String.singleton c)).map (fun b => Char.ofNat b.toNat) ++ s, r)

/-- The tokens of a program. In texts every character is one byte. -/
def tokens (fuel : Nat) (cs : List Char) : Option (List Token) :=
  match fuel, cs with
  | 0, _ => none
  | _, [] => some []
  | fuel + 1, c :: rest =>
    if c = '\n' then (tokens fuel rest).map (.sign ";" :: ·)
    else if c.isWhitespace then tokens fuel rest
    else if c = '"' then do
      let (s, r) ← quoted cs.length rest
      return .text (String.ofList s) :: (← tokens fuel r)
    else if c.isDigit then
      (tokens fuel (cs.dropWhile Char.isDigit)).map
        (.number ((String.ofList (cs.takeWhile Char.isDigit)).toNat?.getD 0) :: ·)
    else if Lexer.isNameStart c then
      (tokens fuel (cs.dropWhile Lexer.isNameChar)).map
        (.name (String.ofList (cs.takeWhile Lexer.isNameChar)) :: ·)
    else do
      let o ← signs.find? fun o => o.toList.isPrefixOf cs
      return .sign o :: (← tokens fuel (cs.drop o.length))

def keywords : List String := ["print", "printf", "for", "while", "if", "else", "exit", "BEGIN", "length", "break",
  "continue"]

/-- Operators that bind alike; the empty one joins texts. With `output` a sign for greater belongs
to the statement. -/
def levels (output : Bool) : List (List String) :=
  [["||"], ["&&"], ["==", "!=", "<", "<=", ">="] ++ (if output then [] else [">"]), [""], ["+", "-"],
    ["*", "/", "%"]]

/-- A token that can begin an operand, so that two of them stand side by side. -/
def beginsOperand : Token → Bool
  | .number _ => true
  | .text _ => true
  | .name s => s ∉ keywords || s == "length"
  | .sign s => s == "("

mutual

def expression (output : Bool) (fuel : Nat) (ts : List Token) : Option (Expression × List Token) :=
  match fuel, ts with
  | 0, _ => none
  | fuel + 1, .name x :: .sign "=" :: r => do
    let (e, r) ← expression output fuel r
    return (.assign x e, r)
  | fuel + 1, .name x :: .sign o :: r =>
    if o ∈ ["+=", "-=", "*=", "/=", "%="] then do
      let (e, r) ← expression output fuel r
      return (.assign x (.binary (String.ofList (o.toList.take 1)) (.variable x) e), r)
    else level output fuel 0 ts
  | fuel + 1, ts => level output fuel 0 ts

def level (output : Bool) (fuel index : Nat) (ts : List Token) : Option (Expression × List Token) :=
  match fuel with
  | 0 => none
  | fuel + 1 =>
    match (levels output)[index]? with
    | none => operand output fuel ts
    | some os => do
      let (a, r) ← level output fuel (index + 1) ts
      further output fuel index os a r

def further (output : Bool) (fuel index : Nat) (os : List String) (a : Expression) (ts : List Token) :
    Option (Expression × List Token) :=
  match fuel, ts with
  | fuel + 1, .sign o :: r =>
    if o ∈ os then do
      let (b, r) ← level output fuel (index + 1) r
      further output fuel index os (.binary o a b) r
    else if "" ∈ os && o == "(" then do
      let (b, r) ← level output fuel (index + 1) ts
      further output fuel index os (.binary "" a b) r
    else some (a, ts)
  | fuel + 1, t :: _ =>
    if "" ∈ os && beginsOperand t then do
      let (b, r) ← level output fuel (index + 1) ts
      further output fuel index os (.binary "" a b) r
    else some (a, ts)
  | _, _ => some (a, ts)

def operand (output : Bool) (fuel : Nat) (ts : List Token) : Option (Expression × List Token) :=
  match fuel, ts with
  | fuel + 1, .sign "(" :: r => do
    match ← expression false fuel r with
    | (e, .sign ")" :: r) => return (e, r)
    | _ => none
  | fuel + 1, .sign "-" :: r => do
    let (e, r) ← operand output fuel r
    return (.binary "-" (.literal (.number 0)) e, r)
  | fuel + 1, .sign "!" :: r => do
    let (e, r) ← operand output fuel r
    return (.negation e, r)
  | fuel + 1, .name "length" :: .sign "(" :: r => do
    match ← expression false fuel r with
    | (e, .sign ")" :: r) => return (.size e, r)
    | _ => none
  | _, .sign "++" :: .name x :: r =>
    some (.assign x (.binary "+" (.variable x) (.literal (.number 1))), r)
  | _, .sign "--" :: .name x :: r =>
    some (.assign x (.binary "-" (.variable x) (.literal (.number 1))), r)
  | _, .name x :: .sign "++" :: r => some (.increase x 1, r)
  | _, .name x :: .sign "--" :: r => some (.increase x (-1), r)
  | _, .number n :: r => some (.literal (.number n), r)
  | _, .text s :: r => some (.literal (.text s), r)
  | _, .name x :: r => if x ∈ keywords then none else some (.variable x, r)
  | _, _ => none

end

def arguments (fuel : Nat) (ts : List Token) : Option (List Expression × List Token) :=
  match fuel, ts with
  | 0, _ => none
  | _, [] => some ([], [])
  | fuel + 1, .sign s :: r =>
    if s = ";" ∨ s = "\x7d" ∨ s = ">" ∨ s = ")" then some ([], .sign s :: r)
    else if s = "," then arguments fuel r
    else do
      let (e, r) ← expression true (16 * ts.length) ts
      let (es, r) ← arguments fuel r
      return (e :: es, r)
  | fuel + 1, ts => do
    let (e, r) ← expression true (16 * ts.length) ts
    let (es, r) ← arguments fuel r
    return (e :: es, r)

/-- Arguments, in brackets or not, and where they are written to. -/
def output (ts : List Token) : Option ((List Expression × Option Expression) × List Token) := do
  let (es, r) ← match ts with
    | .sign "(" :: r => do
      match ← arguments (r.length + 1) r with
      | (es, .sign ")" :: .sign s :: r) =>
        if s = ";" ∨ s = "\x7d" ∨ s = ">" then some (es, .sign s :: r)
        else arguments (ts.length + 1) ts
      | _ => arguments (ts.length + 1) ts
    | ts => arguments (ts.length + 1) ts
  match r with
  | .sign ">" :: r => do
    let (target, r) ← expression true (16 * r.length + 16) r
    return ((es, some target), r)
  | r => return ((es, none), r)

def simple (ts : List Token) : Option (Statement × List Token) :=
  match ts with
  | .name "print" :: r => (output r).map fun ((es, target), r) => (.print es target, r)
  | .name "printf" :: r => (output r).map fun ((es, target), r) => (.printf es target, r)
  | .name "exit" :: r =>
    match expression false (16 * r.length + 16) r with
    | some (e, r) => some (.exit e, r)
    | none => some (.exit (.literal (.number 0)), r)
  | .name "break" :: r => some (.leave, r)
  | .name "continue" :: r => some (.next, r)
  | .sign ";" :: _ => some (.skip, ts)
  | .sign ")" :: _ => some (.skip, ts)
  | ts => (expression false (16 * ts.length + 16) ts).map fun (e, r) => (.evaluate e, r)

def dropSign (s : String) : List Token → Option (List Token)
  | .sign t :: r => if s = t then some r else none
  | _ => none

def dropSeparators : List Token → List Token
  | .sign ";" :: r => dropSeparators r
  | ts => ts

mutual

def statement (fuel : Nat) (ts : List Token) : Option (Statement × List Token) :=
  match fuel, ts with
  | 0, _ => none
  | fuel + 1, .sign "\x7b" :: r => block fuel r
  | fuel + 1, .name "if" :: r => do
    let (condition, r) ← expression false (16 * r.length + 16) (← dropSign "(" r)
    let (yes, r) ← statement fuel (← dropSign ")" r)
    match dropSeparators r with
    | .name "else" :: r => do
      let (no, r) ← statement fuel r
      return (.choice condition yes no, r)
    | _ => return (.choice condition yes .skip, r)
  | fuel + 1, .name "while" :: r => do
    let (condition, r) ← expression false (16 * r.length + 16) (← dropSign "(" r)
    let (body, r) ← statement fuel (← dropSign ")" r)
    return (.loop condition body .skip, r)
  | fuel + 1, .name "for" :: r => do
    let (start, r) ← simple (← dropSign "(" r)
    let r ← dropSign ";" r
    let (condition, r) ← match r with
      | .sign ";" :: _ => some (.literal (.number 1), r)
      | r => expression false (16 * r.length + 16) r
    let (step, r) ← simple (← dropSign ";" r)
    let (body, r) ← statement fuel (← dropSign ")" r)
    return (.sequence start (.loop condition body step), r)
  | _, ts => simple ts

def block (fuel : Nat) (ts : List Token) : Option (Statement × List Token) :=
  match fuel with
  | 0 => none
  | fuel + 1 =>
    match dropSeparators ts with
    | .sign "\x7d" :: r => some (.skip, r)
    | ts => do
      let (first, r) ← statement fuel ts
      let (rest, r) ← block fuel r
      return (.sequence first rest, r)

end

def read (s : String) : Option Statement := do
  let ts ← tokens (s.length + 1) s.toList
  match dropSeparators ts with
  | .name "BEGIN" :: .sign "\x7b" :: r =>
    let (body, rest) ← block (4 * r.length + 4) r
    if (dropSeparators rest).isEmpty then some body else none
  | _ => none

/-! ## Running -/

structure State where
  bindings : List (String × Value) := []
  /-- What was written, backwards. -/
  stdout : List (List UInt8) := []
  stderr : List (List UInt8) := []
  status : Nat := 0
  /-- What is left to run is passed over: all of it, the rest of a loop, or the rest of a round. -/
  passing : Option Statement := none

namespace Value

def toText : Value → String
  | .number n => toString n
  | .text s => s

def toNumber : Value → Int
  | .number n => n
  | .text s =>
    let body := s.toList.dropWhile Char.isWhitespace
    (Format.numberOf (String.ofList body)).1

def isTrue : Value → Bool
  | .number n => n != 0
  | .text s => !s.isEmpty

end Value

def compare (o : String) (a b : Value) : Bool :=
  let by_ (less equal : Bool) : Bool :=
    match o with
    | "==" => equal
    | "!=" => !equal
    | "<" => less
    | "<=" => less || equal
    | ">" => !less && !equal
    | _ => !less
  match a, b with
  | .number x, .number y => by_ (x < y) (x == y)
  | a, b => by_ (decide (a.toText < b.toText)) (a.toText == b.toText)

def combine (o : String) (a b : Value) : Value :=
  let truth (b : Bool) : Value := .number (if b then 1 else 0)
  match o with
  | "" => .text (a.toText ++ b.toText)
  | "+" => .number (a.toNumber + b.toNumber)
  | "-" => .number (a.toNumber - b.toNumber)
  | "*" => .number (a.toNumber * b.toNumber)
  | "/" => .number (a.toNumber.tdiv b.toNumber)
  | "%" => .number (a.toNumber.tmod b.toNumber)
  | "&&" => truth (a.isTrue && b.isTrue)
  | "||" => truth (a.isTrue || b.isTrue)
  | o => truth (compare o a b)

def State.set (st : State) (name : String) (v : Value) : State :=
  { st with bindings := (name, v) :: st.bindings.filter fun x => x.1 != name }

def State.get (st : State) (name : String) : Value := (st.bindings.lookup name).getD (.text "")

def eval (st : State) : Expression → Value × State
  | .literal v => (v, st)
  | .variable name => (st.get name, st)
  | .binary o a b =>
    let (x, st) := eval st a
    let (y, st) := eval st b
    (combine o x y, st)
  | .negation a =>
    let (x, st) := eval st a
    (.number (if x.isTrue then 0 else 1), st)
  | .size a =>
    let (x, st) := eval st a
    (.number x.toText.length, st)
  | .assign name a =>
    let (x, st) := eval st a
    (x, st.set name x)
  | .increase name amount =>
    let old := (st.get name).toNumber
    (.number old, st.set name (.number (old + amount)))

def evalAll (st : State) : List Expression → List Value × State
  | [] => ([], st)
  | e :: rest =>
    let (v, st) := eval st e
    let (vs, st) := evalAll st rest
    (v :: vs, st)

/-- The bytes of a text in which every character is one. -/
def bytesOf (s : String) : List UInt8 := s.toList.map fun c => UInt8.ofNat c.toNat

def State.write (st : State) (target : Option String) (bytes : List UInt8) : State :=
  if target = some "/dev/stderr" then { st with stderr := bytes :: st.stderr }
  else { st with stdout := bytes :: st.stdout }

def targetOf (st : State) (target : Option Expression) : Option String :=
  target.map fun e => (eval st e).1.toText

def formatted (vs : List Value) : List UInt8 :=
  match vs.map Value.toText with
  | [] => []
  | format :: arguments =>
    if format.toList.contains '%' then
      let p := Format.pass (format.length + 1) { rest := arguments } format.toList
      bytesOf (Text.Utf8.decodeLossy p.piece.bytes)
    else bytesOf format

def run (fuel : Nat) (s : Statement) (st : State) : State :=
  match fuel with
  | 0 => st
  | fuel + 1 =>
    if st.passing.isSome then st
    else
      match s with
      | .skip => st
      | .sequence a b => run fuel b (run fuel a st)
      | .evaluate e => (eval st e).2
      | .print es target =>
        let (vs, st) := evalAll st es
        let line := " ".intercalate (vs.map Value.toText)
        st.write (targetOf st target) (bytesOf line ++ [10])
      | .printf es target =>
        let (vs, st) := evalAll st es
        st.write (targetOf st target) (formatted vs)
      | .choice c yes no =>
        let (v, st) := eval st c
        run fuel (if v.isTrue then yes else no) st
      | .loop c body step =>
        let (v, st) := eval st c
        if v.isTrue then
          let st := run fuel body st
          if st.passing = some .leave then { st with passing := none }
          else
            let st := if st.passing = some .next then { st with passing := none } else st
            run fuel (.loop c body step) (run fuel step st)
        else st
      | .leave => { st with passing := some .leave }
      | .next => { st with passing := some .next }
      | .exit e =>
        let (v, st) := eval st e
        { st with status := (v.toNumber % 256).toNat, passing := some .skip }

/-- More rounds than any program here takes. -/
def maxRounds : Nat := 10000000

/-- What a program writes to its two streams, and its status. Nothing for one that cannot be read. -/
def execute (source : String) : Option (List UInt8 × List UInt8 × Nat) := do
  let s ← read source
  let st := run maxRounds s {}
  return (st.stdout.reverse.flatten, st.stderr.reverse.flatten, st.status)

end Ensemble.Posix.Awk
