import Ensemble.Json.Document

/-!
# Reading typed values

Decoders walk a document and report the first thing that is wrong in the order of the text. A
record is read by `Fields`, an applicative in which every field is looked up by name and the
failure at the earliest member counts; only then come the fields that are missing, in the order
they are declared.
-/

namespace Ensemble.Json

/-- Where a document comes from: text, a value at hand, members set aside while the tag of a
tagged record was looked for, or a settings file. They differ in how surplus elements and names of
variants are reported. -/
inductive Source where
  | text
  | value
  | buffered
  | settings
deriving DecidableEq

abbrev Decoder (α : Type) := Source → Doc → Except Error α

def Doc.found : Doc → Except ReadError Found
  | .null => .ok .null
  | .bool b => .ok (.bool b)
  | .number n => .ok (.number n)
  | .text s => .ok (.text s)
  | .array _ _ => .ok .sequence
  | .object _ _ => .ok .map
  | .guarded e _ => .error e
  | .broken e => .error e

def Doc.refuse (d : Doc) (expected : String) : Except Error α :=
  match d.found with
  | .ok found => .error (.data (.type found expected))
  | .error e => .error (.read e)

def refuseVariant (name : String) (known : List String) : Except Error α :=
  .error (.data (.variant name known))

namespace Decode

def readAs (r : Except ReadError α) : Except Error α :=
  match r with
  | .ok a => .ok a
  | .error e => .error (.read e)

def textAs (expected : String) : Decoder String
  | _, .text s => .ok s
  | _, d => d.refuse expected

def text : Decoder String := textAs "a string"

def bool : Decoder Bool
  | _, .bool b => .ok b
  | _, d => d.refuse "a boolean"

/-- A whole number from `low` to `high`. -/
def whole (expected : String) (low high : Int) : Decoder Int
  | _, .number (.whole n) =>
    if low ≤ n ∧ n ≤ high then .ok n
    else .error (.data (.value (.number (.whole n)) expected))
  | _, d => d.refuse expected

def word64 : Decoder UInt64 := fun src d =>
  (whole "u64" 0 0xFFFFFFFFFFFFFFFF src d).map fun n => UInt64.ofNat n.toNat

def word32 : Decoder UInt32 := fun src d =>
  (whole "u32" 0 0xFFFFFFFF src d).map fun n => UInt32.ofNat n.toNat

def size : Decoder Nat := fun src d => (whole "usize" 0 0xFFFFFFFFFFFFFFFF src d).map Int.toNat

def floatOfWhole (n : Int) : Float :=
  if n < 0 then -(UInt64.ofNat n.natAbs).toFloat else (UInt64.ofNat n.natAbs).toFloat

def float32OfWhole (n : Int) : Float32 :=
  if n < 0 then -(UInt64.ofNat n.natAbs).toFloat32 else (UInt64.ofNat n.natAbs).toFloat32

def float : Decoder Float
  | _, .number (.whole n) => .ok (floatOfWhole n)
  | _, .number (.float x) => .ok x
  | _, .number (.float32 x) => .ok x.toFloat
  | _, d => d.refuse "f64"

def float32 : Decoder Float32
  | _, .number (.whole n) => .ok (float32OfWhole n)
  | _, .number (.float x) => .ok x.toFloat32
  | _, .number (.float32 x) => .ok x
  | _, d => d.refuse "f32"

def option (decode : Decoder α) : Decoder (Option α)
  | _, .null => .ok none
  | src, d => (decode src d).map some

def items (decode : Doc → Except Error α) (tail : Option ReadError) :
    List Doc → Except Error (List α)
  | [] => (readAs (Doc.tailError tail)).map fun _ => []
  | d :: rest => do
    let a ← decode d
    return a :: (← items decode tail rest)

def list (decode : Decoder α) : Decoder (List α)
  | src, .array ds tail => items (decode src) tail ds
  | _, d => d.refuse "a sequence"

def members (decode : Doc → Except Error α) (tail : Option ReadError) :
    List (Except ReadError String × Doc) → Except Error (List (String × α))
  | [] => (readAs (Doc.tailError tail)).map fun _ => []
  | (name, d) :: rest => do
    let n ← readAs name
    let a ← decode d
    return (n, a) :: (← members decode tail rest)

/-- A map from texts, sorted by key. -/
def map (decode : Decoder α) : Decoder (List (String × α))
  | src, .object ms tail => (members (decode src) tail ms).map sortMembers
  | _, d => d.refuse "a map"

def any : Decoder Json := fun _ d => readAs d.toJson

def unit : Decoder Unit
  | _, .null => .ok ()
  | _, d => d.refuse "unit"

def lookupVariant (variants : List (String × α)) (name : String) : Except Error α :=
  match variants.lookup name with
  | some a => .ok a
  | none => refuseVariant name (variants.map (·.1))

/-- A plain variant is written as its name; an object with the name as its only member, and null
there, is read as well. -/
def variant (variants : List (String × α)) : Decoder α
  | _, .text s => lookupVariant variants s
  | src, .object ms tail =>
    match src, ms, tail with
    | .text, [], none => .error (.form .expectedValue)
    | .text, [], some e => .error (.read e)
    | .text, (name, d) :: rest, tail => do
      let a ← lookupVariant variants (← readAs name)
      unit src d
      match rest, tail with
      | [], none => .ok a
      | [], some e => .error (.read e)
      | _, _ => .error (.form .expectedValue)
    | _, [(name, d)], _ => do
      let a ← lookupVariant variants (← readAs name)
      unit src d
      return a
    | _, _, _ => .error (.data (.value .map "map with a single key"))
  | .text, d =>
    match d.found with
    | .ok _ => .error (.form .expectedValue)
    | .error e => .error (.read e)
  | _, d => d.refuse "string or map"

end Decode

structure MemberFault where
  index : Nat
  error : Error

/-- The members of a record under reading. `missing` is the error for a field that is not there;
`positional` members came without names. -/
structure Members where
  entries : List (Nat × String × Doc)
  positional : Bool
  missing : String → Error

def Members.find? (ms : Members) (name : String) : Option (Nat × Doc) :=
  (ms.entries.find? (fun e => e.2.1 == name)).map fun e => (e.1, e.2.2)

def MemberFault.first (a b : MemberFault) : MemberFault := if b.index < a.index then b else a

structure Fields (α : Type) where
  names : List String
  read : Source → Members → Except MemberFault α

namespace Fields

def pure (a : α) : Fields α := ⟨[], fun _ _ => .ok a⟩

def map (f : α → β) (x : Fields α) : Fields β := ⟨x.names, fun src ms => (x.read src ms).map f⟩

/-- Both parts are read; when both fail, the earlier failure counts. -/
def seq (f : Fields (α → β)) (x : Fields α) : Fields β where
  names := f.names ++ x.names
  read src ms :=
    match f.read src ms, x.read src ms with
    | .ok g, .ok a => .ok (g a)
    | .error e, .ok _ => .error e
    | .ok _, .error e => .error e
    | .error e, .error e' => .error (e.first e')

instance : Functor Fields := ⟨map, fun a x => map (fun _ => a) x⟩

instance : Seq Fields := ⟨fun f x => seq f (x ())⟩

def behind (ms : Members) : Nat := ms.entries.length + 1

def decodeAt (decode : Decoder α) (src : Source) (index : Nat) (d : Doc) : Except MemberFault α :=
  match decode src d with
  | .ok a => .ok a
  | .error e => .error ⟨index, e⟩

def required (name : String) (decode : Decoder α) : Fields α where
  names := [name]
  read src ms :=
    match ms.find? name with
    | some (index, d) => decodeAt decode src index d
    | none => .error ⟨behind ms, ms.missing name⟩

def defaulted (name : String) (default : α) (decode : Decoder α) : Fields α where
  names := [name]
  read src ms :=
    match ms.find? name with
    | some (index, d) => decodeAt decode src index d
    | none => .ok default

/-- A field that may be left out or null. -/
def optional (name : String) (decode : Decoder α) : Fields (Option α) :=
  defaulted name none (Decode.option decode)

/-- A field that may be null and, where members have names, left out. -/
def nullable (name : String) (decode : Decoder α) : Fields (Option α) where
  names := [name]
  read src ms :=
    match ms.find? name with
    | some (index, d) => decodeAt (Decode.option decode) src index d
    | none => if ms.positional then .error ⟨behind ms, ms.missing name⟩ else .ok none

end Fields

namespace Decode

/-- The faults of named members themselves: unreadable names, repeated fields, and members nobody
asked for that are not even JSON. -/
def memberFaults (names : List String) (seen : List String) (index : Nat) :
    List (Except ReadError String × Doc) → List MemberFault
  | [] => []
  | (.error e, _) :: rest => ⟨index, .read e⟩ :: memberFaults names seen (index + 1) rest
  | (.ok name, d) :: rest =>
    if name ∈ names then
      if name ∈ seen then
        ⟨index, .data (.duplicate name)⟩ :: memberFaults names seen (index + 1) rest
      else memberFaults names (name :: seen) (index + 1) rest
    else
      match d.skip with
      | .ok () => memberFaults names seen (index + 1) rest
      | .error e => ⟨index, .read e⟩ :: memberFaults names seen (index + 1) rest

def tailFault (index : Nat) (tail : Option ReadError) : List MemberFault :=
  match tail with
  | none => []
  | some e => [⟨index, .read e⟩]

def earliest : List MemberFault → Option MemberFault
  | [] => none
  | f :: rest => some (rest.foldl MemberFault.first f)

/-- The result of the fields, unless a fault of the members comes first. -/
def settle (faults : List MemberFault) (r : Except MemberFault α) : Except Error α :=
  match earliest faults, r with
  | none, .ok a => .ok a
  | none, .error f => .error f.error
  | some f, .ok _ => .error f.error
  | some f, .error g => .error (f.first g).error

def countOf (n : Nat) (noun : String) : String := s!"{n} {noun}" ++ (if n = 1 then "" else "s")

/-- What is wrong with an array that has more elements than the record has fields. -/
def surplus (src : Source) (fields count : Nat) : Option Error :=
  match src with
  | .text => some (.form .trailingCharacters)
  | .value => some (.data (.length count "fewer elements in array"))
  | .buffered => some (.data (.length count (countOf fields "element" ++ " in sequence")))
  | .settings => none

/-- Nothing is read behind the last field, so a text that ends after one comma more does not count
as ended. -/
def surplusFaults (src : Source) (fields : Nat) (ds : List Doc) (tail : Option ReadError) :
    List MemberFault :=
  if fields < ds.length then
    match surplus src fields ds.length with
    | some e => [⟨fields, e⟩]
    | none => []
  else
    match tail with
    | some ⟨.endInValue, _⟩ =>
      if ds.length = fields then [⟨fields, .form .trailingCharacters⟩] else tailFault ds.length tail
    | _ => tailFault ds.length tail

def entriesOf (index : Nat) : List (Except ReadError String × Doc) → List (Nat × String × Doc)
  | [] => []
  | (.ok name, d) :: rest => (index, name, d) :: entriesOf (index + 1) rest
  | (.error _, _) :: rest => entriesOf (index + 1) rest

def positions (names : List String) (ds : List Doc) : List (Nat × String × Doc) :=
  (names.zip ds).zipIdx.map fun ((name, d), i) => (i, name, d)

/-- A record as an object, or as an array of its fields in order. -/
def record (what : String) (fields : Fields α) : Decoder α
  | src, .object ms tail =>
    let faults := memberFaults fields.names [] 0 ms ++ tailFault ms.length tail
    settle faults (fields.read src ⟨entriesOf 0 ms, false, fun name => .data (.missing name)⟩)
  | src, .array ds tail =>
    let names := fields.names
    let expected := what ++ " with " ++ countOf names.length "element"
    let missing (name : String) : Error := .data (.length (names.idxOf name) expected)
    settle (surplusFaults src names.length ds tail)
      (fields.read src ⟨positions names ds, true, missing⟩)
  | _, d => d.refuse what

def tagOf (variants : List (String × α)) : Doc → Except Error α
  | .text s => lookupVariant variants s
  | d => d.refuse "variant identifier"

/-- The members of a tagged record in order: the tag once, and everything else as plain JSON. -/
def tagFaults (tag : String) (tagged : Bool) (index : Nat) :
    List (Except ReadError String × Doc) → List MemberFault
  | [] => []
  | (.error e, _) :: rest => ⟨index, .read e⟩ :: tagFaults tag tagged (index + 1) rest
  | (.ok name, d) :: rest =>
    if name = tag then
      if tagged then ⟨index, .data (.duplicate tag)⟩ :: tagFaults tag true (index + 1) rest
      else tagFaults tag true (index + 1) rest
    else
      match d.toJson with
      | .ok _ => tagFaults tag tagged (index + 1) rest
      | .error e => ⟨index, .read e⟩ :: tagFaults tag tagged (index + 1) rest

def isTag (tag : String) (m : Except ReadError String × Doc) : Bool :=
  match m.1 with
  | .ok name => name == tag
  | .error _ => false

def itemFaults (index : Nat) : List Doc → List MemberFault
  | [] => []
  | d :: rest =>
    match d.toJson with
    | .ok _ => itemFaults (index + 1) rest
    | .error e => ⟨index, .read e⟩ :: itemFaults (index + 1) rest

/-- A record whose tag says how to read the rest. In an array the tag comes first. -/
def tagged (what tag : String) (variants : List (String × Decoder α)) : Decoder α
  | _, .object ms tail => do
    let faults := tagFaults tag false 0 ms ++ tailFault ms.length tail
    let index := (ms.findIdx? (isTag tag)).getD (ms.length + 1)
    let choice := match ms.find? (isTag tag) with
      | some (_, d) => tagOf variants d
      | none => .error (.data (.missing tag))
    let decode ← settle faults (choice.mapError (MemberFault.mk index))
    decode .buffered (.object (ms.filter (fun m => !isTag tag m)) none)
  | _, .array [] none => .error (.data (.missing tag))
  | _, .array [] (some e) => .error (.read e)
  | _, .array (d :: ds) tail => do
    let faults := itemFaults 1 ds ++ tailFault (ds.length + 1) tail
    let decode ← settle faults ((tagOf variants d).mapError (MemberFault.mk 0))
    decode .buffered (.array ds none)
  | _, d => d.refuse what

/-- A variant without fields. Named members are passed over. -/
def bare (a : α) : Decoder α
  | _, .object _ _ => .ok a
  | _, .array [] _ => .ok a
  | _, .array ds _ => .error (.data (.length ds.length "0 elements in sequence"))
  | _, d => d.refuse "unit"

def ofText (decode : Decoder α) (s : String) : Except Error α := do
  let document := Document.read s
  let a ← decode .text document.root
  readAs (Doc.tailError document.trailing)
  return a

def ofValue (decode : Decoder α) (v : Json) : Except Error α := decode .value (.ofJson v)

end Decode

def parse (s : String) : Except Error Json := Decode.ofText Decode.any s

end Ensemble.Json
