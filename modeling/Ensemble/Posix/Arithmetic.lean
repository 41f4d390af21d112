import Ensemble.Posix.Lexer

/-!
# Arithmetic in scripts

Expressions over whole numbers of 64 bits. Operators bind in ten levels; those of one level from
left to right.
-/

namespace Ensemble.Posix.Arithmetic

inductive Sign where
  | number (n : Int)
  | name (s : String)
  | operator (s : String)
deriving DecidableEq

inductive Fault where
  | divisionByZero
  | expectingPrimary
  | expectingEnd
  | illegalNumber (s : String)

def assignments : List String := ["=", "+=", "-=", "*=", "/=", "%=", "<<=", ">>=", "&=", "|=", "^="]

def operators : List String :=
  ["<<=", ">>=", "+=", "-=", "*=", "/=", "%=", "&=", "|=", "^=", "<<", ">>", "<=", ">=", "==", "!=", "&&",
    "||", "+", "-", "*", "/", "%", "<", ">", "&", "|", "^", "!", "~", "?", ":", "(", ")", "="]

def levels : List (List String) :=
  [["||"], ["&&"], ["|"], ["^"], ["&"], ["==", "!="], ["<", ">", "<=", ">="], ["<<", ">>"], ["+", "-"],
    ["*", "/", "%"]]

/-- The value of a literal: octal behind a zero, hexadecimal behind 0x. -/
def literal? (cs : List Char) : Option Int :=
  let digits (base : Nat) (cs : List Char) : Option Int :=
    if cs.isEmpty then none
    else cs.foldlM (fun (acc : Int) c =>
      let n := if c.isDigit then c.toNat - 48 else c.toLower.toNat - 87
      if c.isAlphanum && n < base then some (acc * base + n) else none) 0
  match cs with
  | ['0'] => some 0
  | '0' :: 'x' :: r => digits 16 r
  | '0' :: 'X' :: r => digits 16 r
  | '0' :: r => digits 8 r
  | cs => digits 10 cs

def number? (s : String) : Option Int :=
  match (s.toList.dropWhile Char.isWhitespace) with
  | '-' :: r => (literal? r).map (- ·)
  | '+' :: r => literal? r
  | cs => literal? cs

def signs (fuel : Nat) (cs : List Char) : Except Fault (List Sign) :=
  match fuel, cs with
  | 0, _ => .ok []
  | _, [] => .ok []
  | fuel + 1, c :: rest =>
    if c.isWhitespace then signs fuel rest
    else if c.isDigit then
      match literal? (cs.takeWhile Char.isAlphanum) with
      | some n => (signs fuel (cs.dropWhile Char.isAlphanum)).map (.number n :: ·)
      | none => .error .expectingEnd
    else if Lexer.isNameStart c then
      (signs fuel (cs.dropWhile Lexer.isNameChar)).map
        (.name (String.ofList (cs.takeWhile Lexer.isNameChar)) :: ·)
    else
      match operators.find? fun o => o.toList.isPrefixOf cs with
      | some o => (signs fuel (cs.drop o.length)).map (.operator o :: ·)
      | none => .error .expectingPrimary

def wrap (n : Int) : Int := n.bmod 0x10000000000000000

def truth (b : Bool) : Int := if b then 1 else 0

def combine (o : String) (a b : Int) : Except Fault Int :=
  match o with
  | "||" => .ok (truth (a != 0 || b != 0))
  | "&&" => .ok (truth (a != 0 && b != 0))
  | "|" => .ok (Int64.ofInt a ||| Int64.ofInt b).toInt
  | "^" => .ok (Int64.ofInt a ^^^ Int64.ofInt b).toInt
  | "&" => .ok (Int64.ofInt a &&& Int64.ofInt b).toInt
  | "==" => .ok (truth (a == b))
  | "!=" => .ok (truth (a != b))
  | "<" => .ok (truth (a < b))
  | ">" => .ok (truth (b < a))
  | "<=" => .ok (truth (a ≤ b))
  | ">=" => .ok (truth (b ≤ a))
  | "<<" => .ok (wrap (a * Nat.pow 2 (b.toNat % 64)))
  | ">>" => .ok (a.fdiv (Nat.pow 2 (b.toNat % 64)))
  | "+" => .ok (wrap (a + b))
  | "-" => .ok (wrap (a - b))
  | "*" => .ok (wrap (a * b))
  | "/" => if b = 0 then .error .divisionByZero else .ok (wrap (a.tdiv b))
  | _ => if b = 0 then .error .divisionByZero else .ok (a.tmod b)

/-- Names with the values that were assigned so far, the latest first. -/
abbrev Evaluation := StateT (List (String × Int)) (Except Fault)

def valueOf (value : String → Except Fault Int) (name : String) : Evaluation Int := do
  match (← get).lookup name with
  | some n => return n
  | none => liftM (value name)

def change (o : String) (a b : Int) : Except Fault Int :=
  if o = "=" then .ok b else combine (String.ofList o.toList.dropLast) a b

mutual

def operand (value : String → Except Fault Int) (fuel : Nat) (ss : List Sign) :
    Evaluation (Int × List Sign) :=
  match fuel, ss with
  | fuel + 1, .operator "-" :: rest => do
    let (n, r) ← operand value fuel rest
    return (wrap (-n), r)
  | fuel + 1, .operator "+" :: rest => operand value fuel rest
  | fuel + 1, .operator "!" :: rest => do
    let (n, r) ← operand value fuel rest
    return (truth (n == 0), r)
  | fuel + 1, .operator "~" :: rest => do
    let (n, r) ← operand value fuel rest
    return (-n - 1, r)
  | fuel + 1, .operator "(" :: rest => do
    let (n, r) ← conditional value fuel rest
    match r with
    | .operator ")" :: r => return (n, r)
    | _ => throw .expectingPrimary
  | _, .number n :: rest => return (n, rest)
  | _, .name s :: rest => return (← valueOf value s, rest)
  | _, _ => throw .expectingPrimary

/-- What the operators from one level on make. -/
def binary (value : String → Except Fault Int) (fuel level : Nat) (ss : List Sign) :
    Evaluation (Int × List Sign) :=
  match fuel with
  | 0 => throw .expectingPrimary
  | fuel + 1 =>
    match levels[level]? with
    | none => operand value fuel ss
    | some os => do
      let (a, r) ← binary value fuel (level + 1) ss
      further value fuel level os a r

def further (value : String → Except Fault Int) (fuel level : Nat) (os : List String) (a : Int)
    (ss : List Sign) : Evaluation (Int × List Sign) :=
  match fuel, ss with
  | fuel + 1, .operator o :: rest =>
    if o ∈ os then do
      let (b, r) ← binary value fuel (level + 1) rest
      further value fuel level os (← liftM (combine o a b)) r
    else return (a, ss)
  | _, _ => return (a, ss)

def conditional (value : String → Except Fault Int) (fuel : Nat) (ss : List Sign) :
    Evaluation (Int × List Sign) :=
  match fuel with
  | 0 => throw .expectingPrimary
  | fuel + 1 => do
    let (n, r) ← binary value fuel 0 ss
    match ss with
    | .name x :: .operator o :: rest =>
      if o ∈ assignments then
        let (b, r) ← conditional value fuel rest
        let new ← liftM (change o n b)
        modify ((x, new) :: ·)
        return (new, r)
      else choice value fuel n r
    | _ => choice value fuel n r

def choice (value : String → Except Fault Int) (fuel : Nat) (n : Int) (ss : List Sign) :
    Evaluation (Int × List Sign) :=
  match fuel, ss with
  | fuel + 1, .operator "?" :: r => do
    let (a, r) ← conditional value fuel r
    match r with
    | .operator ":" :: r =>
      let (b, r) ← conditional value fuel r
      return (if n != 0 then a else b, r)
    | _ => throw .expectingPrimary
  | _, _ => return (n, ss)

end

/-- The value of an expression, with what it assigns; `value` gives the values of names. -/
def evaluate (value : String → Except Fault Int) (s : String) :
    Except Fault (Int × List (String × Int)) := do
  let ss ← signs (s.length + 1) s.toList
  if ss.isEmpty then return (0, [])
  let ((n, rest), assigned) ← (conditional value (16 * ss.length + 16) ss).run []
  if rest.isEmpty then return (n, assigned.reverse) else throw .expectingEnd

end Ensemble.Posix.Arithmetic
