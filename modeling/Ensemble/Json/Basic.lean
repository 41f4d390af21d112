/-!
# JSON values

Members are kept in the order given. `insert` keeps a list of members sorted by name with one
member a name, which is the form of every value read from text that has no type of its own.
-/

namespace Ensemble

/-- A whole number within 64 bits, signed or not, or a float of 64 or 32 bits. No text reads as a
float of 32 bits. -/
inductive Json.Number where
  | whole (n : Int)
  | float (x : Float)
  | float32 (x : Float32)

inductive Json where
  | null
  | bool (b : Bool)
  | number (n : Json.Number)
  | text (s : String)
  | array (items : List Json)
  | object (members : List (String × Json))

instance : Inhabited Json := ⟨.null⟩

namespace Json

def nat (n : Nat) : Json := .number (.whole n)

def float (x : Float) : Json := .number (.float x)

def texts (xs : List String) : Json := .array (xs.map .text)

def orNull (f : α → Json) : Option α → Json
  | some a => f a
  | none => .null

/-- Puts a member in its sorted place; a member of the same name is replaced. -/
def insert (name : String) (value : α) : List (String × α) → List (String × α)
  | [] => [(name, value)]
  | (n, v) :: rest =>
    if name < n then (name, value) :: (n, v) :: rest
    else if name = n then (name, value) :: rest
    else (n, v) :: insert name value rest

def sortMembers (members : List (String × α)) : List (String × α) :=
  members.foldl (fun acc m => insert m.1 m.2 acc) []

def sorted (members : List (String × Json)) : Json := .object (sortMembers members)

def get? (name : String) : Json → Option Json
  | .object members => members.lookup name
  | _ => none

def bool? : Json → Option Bool
  | .bool b => some b
  | _ => none

def text? : Json → Option String
  | .text s => some s
  | _ => none

end Json

end Ensemble
