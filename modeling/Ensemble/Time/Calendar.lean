/-!
# Dates and times of day

Proleptic Gregorian dates and UTC times. A leap second is second 60. `Timestamp.shift` moves a
time by less than a day, which is all that a zone offset can do.
-/

namespace Ensemble.Time

structure Date where
  year : Int
  month : Nat
  day : Nat
deriving DecidableEq

structure Timestamp where
  date : Date
  hour : Nat
  minute : Nat
  second : Nat
  nanosecond : Nat
deriving DecidableEq

def isLeap (year : Int) : Bool := year % 4 == 0 && (year % 100 != 0 || year % 400 == 0)

def monthLength (year : Int) (month : Nat) : Nat :=
  match month with
  | 2 => if isLeap year then 29 else 28
  | 4 | 6 | 9 | 11 => 30
  | _ => 31

def Date.next (d : Date) : Date :=
  if d.day < monthLength d.year d.month then { d with day := d.day + 1 }
  else if d.month < 12 then ⟨d.year, d.month + 1, 1⟩
  else ⟨d.year + 1, 1, 1⟩

def Date.previous (d : Date) : Date :=
  if 1 < d.day then { d with day := d.day - 1 }
  else if 1 < d.month then ⟨d.year, d.month - 1, monthLength d.year (d.month - 1)⟩
  else ⟨d.year - 1, 12, 31⟩

/-- The time `minutes` later; the seconds stay. -/
def Timestamp.shift (t : Timestamp) (minutes : Int) : Timestamp :=
  let total : Int := t.hour * 60 + t.minute + minutes
  let ofDay := (total % 1440).toNat
  let date :=
    if total < 0 then t.date.previous else if 1440 ≤ total then t.date.next else t.date
  { t with date := date, hour := ofDay / 60, minute := ofDay % 60 }

/-- Earlier or the same, field by field. -/
def Timestamp.le (a b : Timestamp) : Bool :=
  let key (t : Timestamp) : List Int :=
    [t.date.year, t.date.month, t.date.day, t.hour, t.minute, t.second, t.nanosecond]
  !(List.lex (key b) (key a))

/-- The moment this many seconds after the beginning of 1970. -/
def Timestamp.ofSeconds (seconds : Nat) : Timestamp :=
  ⟨Nat.repeat Date.next (seconds / 86400) ⟨1970, 1, 1⟩, seconds % 86400 / 3600, seconds % 3600 / 60,
    seconds % 60, 0⟩

end Ensemble.Time
