import Ensemble.Json.Decode

/-!
# Looking into values

Members of an object by name. A member that is null counts as left out.
-/

namespace Ensemble.Json

def given? (j : Json) (name : String) : Option Json :=
  match j.get? name with
  | some .null => none
  | r => r

def elements : Json → List Json
  | .array items => items
  | _ => []

def itemsAt (j : Json) (name : String) : List Json := ((j.given? name).map elements).getD []

def membersAt (j : Json) (name : String) : List (String × Json) :=
  match j.given? name with
  | some (.object ms) => ms
  | _ => []

def nat? : Json → Option Nat
  | .number (.whole n) => some n.toNat
  | _ => none

def textAt? (j : Json) (name : String) : Option String := (j.given? name).bind text?

def textAt (j : Json) (name : String) (default : String := "") : String := (j.textAt? name).getD default

def textsAt (j : Json) (name : String) : List String := (j.itemsAt name).filterMap text?

def natAt? (j : Json) (name : String) : Option Nat := (j.given? name).bind nat?

def natAt (j : Json) (name : String) (default : Nat := 0) : Nat := (j.natAt? name).getD default

def flagAt (j : Json) (name : String) (default : Bool := false) : Bool :=
  ((j.given? name).bind bool?).getD default

/-- An object member, empty when it is left out. -/
def recordAt (j : Json) (name : String) : Json := (j.given? name).getD (.object [])

def typedAt? (j : Json) (decode : Decoder α) (name : String) : Option α :=
  (j.given? name).bind fun v => (Decode.ofValue decode v).toOption

def typedItems (j : Json) (decode : Decoder α) (name : String) : List α :=
  (j.itemsAt name).filterMap fun v => (Decode.ofValue decode v).toOption

end Ensemble.Json
