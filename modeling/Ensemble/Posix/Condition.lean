import Ensemble.Posix.Arithmetic
import Ensemble.Posix.Files

/-!
# Conditions on files, texts and numbers
-/

namespace Ensemble.Posix.Condition

inductive Fault where
  | illegalNumber (s : String)
  | unexpectedOperator (s : String)
  | missingArgument
  | missingOperand (s : String)

def Fault.message : Fault → String
  | .illegalNumber s => "Illegal number: " ++ s
  | .unexpectedOperator s => s ++ ": unexpected operator"
  | .missingArgument => "argument expected"
  | .missingOperand s => s ++ ": argument expected"

def unary? (files : Files) (directory : Path) (o : String) : Option (String → Bool) :=
  let entry (s : String) : Option Entry := ((files.find directory s).toOption).map (·.2)
  let isFile (s : String) := match entry s with
    | some (.file _ _) => true
    | some (.program _) => true
    | _ => false
  match o with
  | "-n" => some fun s => !s.isEmpty
  | "-z" => some fun s => s.isEmpty
  | "-e" => some fun s => (entry s).isSome
  | "-r" => some fun s => (entry s).isSome
  | "-w" => some fun s => (entry s).isSome
  | "-f" => some isFile
  | "-d" => some fun s => entry s == some .directory
  | "-s" => some fun s => match entry s with
    | some (.file content _) => !content.isEmpty
    | some _ => true
    | none => false
  | "-x" => some fun s => match entry s with
    | some (.file _ executable) => executable
    | some .directory => true
    | some (.program _) => true
    | _ => false
  | "-t" => some fun _ => false
  | "-h" => some fun _ => false
  | "-L" => some fun _ => false
  | "-p" => some fun _ => false
  | _ => none

def number (s : String) : Except Fault Int :=
  match Arithmetic.number? (String.ofList (s.toList.filter (!Char.isWhitespace ·))) with
  | some n => .ok n
  | none => .error (.illegalNumber s)

def binary? (o : String) : Option (String → String → Except Fault Bool) :=
  let numeric (f : Int → Int → Bool) : Option (String → String → Except Fault Bool) :=
    some fun a b => do return f (← number a) (← number b)
  match o with
  | "=" => some fun a b => .ok (a == b)
  | "!=" => some fun a b => .ok (a != b)
  | "<" => some fun a b => .ok (decide (a < b))
  | ">" => some fun a b => .ok (decide (b < a))
  | "-eq" => numeric (· == ·)
  | "-ne" => numeric (· != ·)
  | "-lt" => numeric (· < ·)
  | "-le" => numeric (· ≤ ·)
  | "-gt" => numeric (· > ·)
  | "-ge" => numeric (· ≥ ·)
  | _ => none

mutual

/-- Tests joined by "or", from left to right. -/
def disjunction (files : Files) (directory : Path) (fuel : Nat) (xs : List String) :
    Except Fault (Bool × List String) :=
  match fuel with
  | 0 => .error .missingArgument
  | fuel + 1 => do
    let (a, r) ← conjunction files directory fuel xs
    match r with
    | "-o" :: r =>
      let (b, r) ← disjunction files directory fuel r
      return (a || b, r)
    | _ => return (a, r)

def conjunction (files : Files) (directory : Path) (fuel : Nat) (xs : List String) :
    Except Fault (Bool × List String) :=
  match fuel with
  | 0 => .error .missingArgument
  | fuel + 1 => do
    let (a, r) ← primary files directory fuel xs
    match r with
    | "-a" :: r =>
      let (b, r) ← conjunction files directory fuel r
      return (a && b, r)
    | _ => return (a, r)

def primary (files : Files) (directory : Path) (fuel : Nat) (xs : List String) :
    Except Fault (Bool × List String) :=
  match fuel, xs with
  | _, [] => .error .missingArgument
  | 0, _ => .error .missingArgument
  | fuel + 1, a :: rest =>
    match rest with
    | o :: b :: r =>
      match binary? o with
      | some f => do return (← f a b, r)
      | none => one files directory fuel a rest
    | [o] =>
      if (binary? o).isSome && (unary? files directory a).isNone then .error (.missingOperand o)
      else one files directory fuel a rest
    | _ => one files directory fuel a rest

def one (files : Files) (directory : Path) (fuel : Nat) (a : String) (rest : List String) :
    Except Fault (Bool × List String) :=
  match fuel with
  | 0 => .error .missingArgument
  | fuel + 1 =>
    if a = "!" ∧ !rest.isEmpty then do
      let (b, r) ← primary files directory fuel rest
      return (!b, r)
    else if a = "(" ∧ !rest.isEmpty then do
      let (b, r) ← disjunction files directory fuel rest
      match r with
      | ")" :: r => return (b, r)
      | _ => throw .missingArgument
    else
      match rest, unary? files directory a with
      | b :: r, some f => .ok (f b, r)
      | _, _ => .ok (!a.isEmpty, rest)

end

def evaluate (files : Files) (directory : Path) (xs : List String) : Except Fault Bool :=
  match xs with
  | [] => .ok false
  | xs => do
    let (b, rest) ← disjunction files directory (8 * xs.length + 8) xs
    match rest with
    | [] => return b
    | _ => throw (.unexpectedOperator (xs[xs.length - rest.length - 1]?.getD ""))

end Ensemble.Posix.Condition
