import Ensemble.Text.Blank
import Ensemble.Text.Digits
import Ensemble.Time.Calendar

/-!
# RFC 3339 times

Times are written in UTC with `Z` and with none, three, six or nine digits of a second. Reading
is more tolerant than the standard: blanks may stand before numbers and marks, the offset may do
without its colon, and `UTC` stands for `Z`.
-/

namespace Ensemble.Time

inductive TimeFault where
  | outOfRange
  | invalid
  | tooShort
  | tooLong
deriving DecidableEq

def TimeFault.message : TimeFault → String
  | .outOfRange => "input is out of range"
  | .invalid => "input contains invalid characters"
  | .tooShort => "premature end of input"
  | .tooLong => "trailing input"

def padded (width n : Nat) : List Char :=
  let cs := Nat.toDigits 10 n
  List.replicate (width - cs.length) '0' ++ cs

def printYear (year : Int) : List Char :=
  if 0 ≤ year ∧ year ≤ 9999 then padded 4 year.toNat
  else (if year < 0 then '-' else '+') :: padded 4 year.natAbs

def printFraction (nanosecond : Nat) : List Char :=
  if nanosecond = 0 then []
  else if nanosecond % 1000000 = 0 then '.' :: padded 3 (nanosecond / 1000000)
  else if nanosecond % 1000 = 0 then '.' :: padded 6 (nanosecond / 1000)
  else '.' :: padded 9 nanosecond

def Date.print (d : Date) : List Char :=
  printYear d.year ++ '-' :: padded 2 d.month ++ '-' :: padded 2 d.day

def Timestamp.print (t : Timestamp) : List Char :=
  t.date.print ++ 'T' :: padded 2 t.hour ++ ':' :: padded 2 t.minute ++ ':' :: padded 2 t.second ++
    printFraction t.nanosecond ++ ['Z']

def Timestamp.render (t : Timestamp) : String := String.ofList t.print

/-- One digit at least and `width` at most. -/
def readDigits (width : Nat) (cs : List Char) : Except TimeFault (Nat × List Char) :=
  let ds := (cs.take width).takeWhile Char.isDigit
  match ds, cs with
  | [], [] => .error .tooShort
  | [], _ => .error .invalid
  | _, _ => .ok (Text.digitsValue ds, cs.drop ds.length)

/-- A number behind any blanks, between `low` and `high`. -/
def readNumber (width low high : Nat) (cs : List Char) : Except TimeFault (Nat × List Char) := do
  let (n, rest) ← readDigits width (Text.trimLeft cs)
  if low ≤ n ∧ n ≤ high then return (n, rest) else throw .outOfRange

/-- Years of the calendar reach this far on both sides. -/
def yearLimit : Nat := 262142

def readYear (cs : List Char) : Except TimeFault (Int × List Char) := do
  let (year, rest) ← match Text.trimLeft cs with
    | '-' :: cs => do
      let (n, rest) ← readDigits 18 cs
      pure (-(n : Int), rest)
    | '+' :: cs => do
      let (n, rest) ← readDigits 18 cs
      pure ((n : Int), rest)
    | cs => do
      let (n, rest) ← readDigits 4 cs
      pure ((n : Int), rest)
  return (year, rest)

def readMark (mark : Char) (cs : List Char) : Except TimeFault (List Char) :=
  match Text.trimLeft cs with
  | [] => .error .tooShort
  | c :: rest => if c = mark then .ok rest else .error .invalid

def readFraction : List Char → Except TimeFault (Nat × List Char)
  | '.' :: cs => do
    let (_, rest) ← readDigits 9 cs
    let ds := (cs.take 9).takeWhile Char.isDigit
    return (Text.digitsValue ds * Nat.pow 10 (9 - ds.length), rest.dropWhile Char.isDigit)
  | cs => .ok (0, cs)

def isUtcName (cs : List Char) : Bool := (cs.map Char.toUpper) == ['U', 'T', 'C']

def readOffsetMinutes : List Char → Except TimeFault (Nat × List Char)
  | a :: b :: rest =>
    if a.isDigit ∧ b.isDigit then
      if a.toNat ≤ 53 then .ok (Text.digitsValue [a, b], rest) else .error .outOfRange
    else .error .invalid
  | _ => .error .tooShort

def readOffset (cs : List Char) : Except TimeFault (Int × List Char) :=
  if isUtcName (cs.take 3) then .ok (0, cs.drop 3)
  else
    match cs with
    | [] => .error .tooShort
    | c :: rest =>
      if c = 'Z' ∨ c = 'z' then .ok (0, rest)
      else if c = '+' ∨ c = '-' ∨ c = '−' then
        match rest with
        | a :: b :: rest =>
          if a.isDigit ∧ b.isDigit then do
            let afterMark := rest.dropWhile fun c => c == ':' || Text.isBlank c
            let (minutes, rest) ← readOffsetMinutes afterMark
            let total : Int := Text.digitsValue [a, b] * 60 + minutes
            return (if c = '+' then total else -total, rest)
          else .error .invalid
        | _ => .error .tooShort
      else .error .invalid

def readSeparator : List Char → Except TimeFault (List Char)
  | [] => .error .tooShort
  | c :: rest => if c = 'T' ∨ c = 't' ∨ c = ' ' then .ok rest else .error .invalid

/-- Reads a time and moves it to UTC. -/
def Timestamp.parse (cs : List Char) : Except TimeFault Timestamp := do
  let (year, cs) ← readYear cs
  let cs ← readMark '-' cs
  let (month, cs) ← readNumber 2 1 12 cs
  let cs ← readMark '-' cs
  let (day, cs) ← readNumber 2 1 31 cs
  let cs ← readSeparator cs
  let (hour, cs) ← readNumber 2 0 23 cs
  let cs ← readMark ':' cs
  let (minute, cs) ← readNumber 2 0 59 cs
  let cs ← readMark ':' cs
  let (second, cs) ← readNumber 2 0 60 cs
  let (nanosecond, cs) ← readFraction cs
  let (offset, cs) ← readOffset (Text.trimLeft cs)
  if Text.trimLeft cs ≠ [] then throw .tooLong
  if 1440 ≤ offset.natAbs then throw .outOfRange
  if monthLength year month < day ∨ yearLimit < year.natAbs then throw .outOfRange
  return (Timestamp.mk ⟨year, month, day⟩ hour minute second nanosecond).shift (-offset)

end Ensemble.Time
