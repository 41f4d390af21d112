import Ensemble.Decimal.Nearest
import Ensemble.Text.Digits
import Ensemble.Time.Calendar
import Ensemble.Toml.Basic

/-!
# Numbers, words and times in settings files

These values are single words, so each is recognised as a whole. Digits may be grouped by
underscores, each of which stands between two digits. Numbers with a sign or without have 64
bits; a float beyond the greatest one is refused, below the least one it is infinite.
-/

namespace Ensemble.Toml

open Text (digitsValue)

/-- Digits without the underscores between them. -/
def ungrouped? (digit : Char → Bool) : List Char → Option (List Char)
  | [] => none
  | [c] => if digit c then some [c] else none
  | c :: '_' :: r => if digit c then (ungrouped? digit r).map (c :: ·) else none
  | c :: r => if digit c then (ungrouped? digit r).map (c :: ·) else none

/-- Decimal digits; nothing follows a leading zero. -/
def wholeDigits? (cs : List Char) : Option (List Char) :=
  match cs with
  | '0' :: _ :: _ => none
  | _ => ungrouped? Char.isDigit cs

def splitSign : List Char → Bool × List Char
  | '-' :: r => (true, r)
  | '+' :: r => (false, r)
  | cs => (false, cs)

def signedWhole? (negative : Bool) (n : Nat) : Option Int :=
  if negative then (if n ≤ 0x8000000000000000 then some (-n) else none)
  else if n < 0x8000000000000000 then some n
  else none

def digitIn (base : Nat) (c : Char) : Bool := (Text.hexValue? c).any (· < base)

/-- A number with a base of its own has no sign. -/
def inBase? (base : Nat) (cs : List Char) : Option Int := do
  let ds ← ungrouped? (digitIn base) cs
  signedWhole? false (ds.foldl (fun acc c => acc * base + (Text.hexValue? c).getD 0) 0)

def whole? (cs : List Char) : Option Int :=
  match cs with
  | '0' :: 'x' :: r => inBase? 16 r
  | '0' :: 'o' :: r => inBase? 8 r
  | '0' :: 'b' :: r => inBase? 2 r
  | _ =>
    let (negative, r) := splitSign cs
    (wholeDigits? r).bind fun ds => signedWhole? negative (digitsValue ds)

def exponent? : List Char → Option Int
  | [] => some 0
  | _ :: r => do
    let (negative, r) := splitSign r
    let n := digitsValue (← ungrouped? Char.isDigit r)
    return if negative then -(n : Int) else n

def fraction? : List Char → Option (List Char)
  | [] => some []
  | _ :: r => ungrouped? Char.isDigit r

def isExponentMark (c : Char) : Bool := c == 'e' || c == 'E'

/-- A float has a fraction, an exponent or both. -/
def decimal? (cs : List Char) : Option Decimal.Scaled := do
  let places := cs.takeWhile fun c => !isExponentMark c
  let exponent ← exponent? (cs.drop places.length)
  let whole := places.takeWhile (· != '.')
  let fraction ← fraction? (places.drop whole.length)
  if whole.length = cs.length then none
  else return ⟨digitsValue ((← wholeDigits? whole) ++ fraction), exponent - fraction.length⟩

def float? (cs : List Char) : Option Float :=
  let (negative, r) := splitSign cs
  if r = ['i', 'n', 'f'] then some (if negative then -Decimal.infinity else Decimal.infinity)
  else if r = ['n', 'a', 'n'] then some (if negative then -(0 / 0) else 0 / 0)
  else do
    let x := (← decimal? r).toFloat
    if negative then return -x
    else if x == Decimal.infinity then none
    else return x

/-! ## Dates and times -/

def twoDigits? : List Char → Option (Nat × List Char)
  | a :: b :: r => if a.isDigit && b.isDigit then some (digitsValue [a, b], r) else none
  | _ => none

def within? (low high : Nat) (cs : List Char) : Option (List Char × List Char) := do
  let (n, r) ← twoDigits? cs
  if low ≤ n ∧ n ≤ high then some (cs.take 2, r) else none

def mark? (c : Char) : List Char → Option (List Char)
  | d :: r => if c = d then some r else none
  | [] => none

def date? (cs : List Char) : Option (List Char × List Char) := do
  let year := cs.take 4
  if ¬ (year.length = 4 ∧ year.all Char.isDigit) then none
  let (month, r) ← within? 1 12 (← mark? '-' (cs.drop 4))
  let (day, r) ← within? 1 31 (← mark? '-' r)
  if Time.monthLength (digitsValue year) (digitsValue month) < digitsValue day then none
  else some (year ++ '-' :: month ++ '-' :: day, r)

/-- A fraction of a second to nine digits, without zeros at its end. -/
def printedFraction (ds : List Char) : List Char :=
  match ((ds.take 9).reverse.dropWhile (· == '0')).reverse with
  | [] => []
  | kept => '.' :: kept

def time? (cs : List Char) : Option (List Char × List Char) := do
  let (hour, r) ← within? 0 23 cs
  let (minute, r) ← within? 0 59 (← mark? ':' r)
  let (second, r) ← within? 0 60 (← mark? ':' r)
  let shown := hour ++ ':' :: minute ++ ':' :: second
  match r with
  | '.' :: r =>
    match r.takeWhile Char.isDigit with
    | [] => none
    | ds => some (shown ++ printedFraction ds, r.drop ds.length)
  | _ => some (shown, r)

def offset? : List Char → Option (List Char)
  | [] => some []
  | ['Z'] => some ['Z']
  | ['z'] => some ['Z']
  | c :: r => do
    if ¬ (c = '+' ∨ c = '-') then none
    let (hour, r) ← within? 0 23 r
    let (minute, r) ← within? 0 59 (← mark? ':' r)
    if r ≠ [] then none
    else
      let zero := hour ++ minute == ['0', '0', '0', '0']
      some ((if zero then '+' else c) :: hour ++ ':' :: minute)

/-- A date, a time, or both with a mark between them and perhaps an offset. -/
def moment? (cs : List Char) : Option (List Char) :=
  match date? cs with
  | some (day, []) => some day
  | some (day, c :: r) => do
    if ¬ (c = 'T' ∨ c = 't' ∨ c = ' ') then none
    let (shown, r) ← time? r
    return day ++ 'T' :: shown ++ (← offset? r)
  | none =>
    match time? cs with
    | some (shown, []) => some shown
    | _ => none

/-! ## Words -/

def isWordChar (c : Char) : Bool :=
  c.isAlphanum || c == '+' || c == '-' || c == '_' || c == '.' || c == ':'

def word? (cs : List Char) : Option Node :=
  if cs = ['t', 'r', 'u', 'e'] then some (.bool true)
  else if cs = ['f', 'a', 'l', 's', 'e'] then some (.bool false)
  else
    match moment? cs with
    | some shown => some (.moment (String.ofList shown))
    | none =>
      match whole? cs with
      | some n => some (.whole n)
      | none => (float? cs).map .float

/-- A date and a time may be parted by a blank; then they are one value. -/
def readWord (cs : List Char) : Option (Node × List Char) :=
  let first := cs.takeWhile isWordChar
  let rest := cs.drop first.length
  let pair? := match rest with
    | ' ' :: r =>
      let second := r.takeWhile isWordChar
      (moment? (first ++ ' ' :: second)).map fun shown => (shown, r.drop second.length)
    | _ => none
  match pair? with
  | some (shown, r) => some (.moment (String.ofList shown), r)
  | none => (word? first).map fun v => (v, rest)

end Ensemble.Toml
