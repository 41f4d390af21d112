import Ensemble.Toml.Scalar
import Ensemble.Toml.Text

/-!
# Reading settings files

A file is a list of statements: headers, which open a table or one more table of a list, and
pairs, which go into the table opened last. Containers within a line and dotted keys may be
nested up to a limit. The statements then build the table of the file, and none of them may touch
what is complete.
-/

namespace Ensemble.Toml

/-! ## Syntax -/

/-- Blanks, line ends and comments; `comment` says that one is under way. -/
def skipSpace (comment : Bool) : List Char → List Char
  | [] => []
  | '\n' :: r => skipSpace false r
  | '\r' :: '\n' :: r => skipSpace false r
  | c :: r =>
    if comment then (if isPlain c then skipSpace true r else c :: r)
    else if isBlankChar c then skipSpace false r
    else if c = '#' then skipSpace true r
    else c :: r

def skipBlanks (cs : List Char) : List Char := cs.dropWhile isBlankChar

/-- A path has fewer keys than this, and containers on a line are nested less deep. -/
def nestingLimit : Nat := 80

/-- A dotted key with blanks around its parts; `left` more parts may follow. -/
def readPathFrom (left : Nat) (cs : List Char) : Option (List String × List Char) :=
  match left with
  | 0 => none
  | left + 1 => do
    let (key, r) ← readKey (skipBlanks cs)
    match skipBlanks r with
    | '.' :: r => do
      let (path, r) ← readPathFrom left r
      return (String.ofList key :: path, r)
    | r => return ([String.ofList key], r)

def readPath (cs : List Char) : Option (List String × List Char) :=
  readPathFrom (nestingLimit - 1) cs

abbrev ValueReader := List Char → Option (Node × List Char)

def readItems (value : ValueReader) : Nat → List Char → Option (List Node × List Char)
  | 0, _ => none
  | fuel + 1, cs =>
    match skipSpace false cs with
    | ']' :: r => some ([], r)
    | cs => do
      let (v, r) ← value cs
      match skipSpace false r with
      | ',' :: r => do
        let (vs, r) ← readItems value fuel r
        return (v :: vs, r)
      | ']' :: r => return ([v], r)
      | _ => none

def readPair (value : ValueReader) (cs : List Char) : Option ((List String × Node) × List Char) := do
  let (path, r) ← readPath cs
  match r with
  | '=' :: r => do
    let (v, r) ← value (skipBlanks r)
    return ((path, v), skipBlanks r)
  | _ => none

/-- The pairs of a table in braces; there is one at least. -/
def readPairs (value : ValueReader) : Nat → List Char → Option (List (List String × Node) × List Char)
  | 0, _ => none
  | fuel + 1, cs => do
    let (p, r) ← readPair value cs
    match r with
    | ',' :: r => do
      let (ps, r) ← readPairs value fuel r
      return (p :: ps, r)
    | '\x7d' :: r => return ([p], r)
    | _ => none

/-! ## Tables -/

def change (name : String) (f : Option Node → Option Node) : Table → Option Table
  | [] => (f none).map fun n => [(name, n)]
  | (k, n) :: rest =>
    if k = name then (f (some n)).map fun n => (k, n) :: rest
    else (change name f rest).map ((k, n) :: ·)

def changeLast (f : Table → Option Table) (items : List Table) : Option (List Table) :=
  match items.reverse with
  | [] => none
  | last :: before => (f last).map fun t => before.reverse ++ [t]

/-- Changes the table at the end of a path. The last table of a list stands for the list; tables
that are not there come to be as `fresh`. -/
def along (fresh : Kind) (enter : Kind → Bool) (f : Table → Option Table) :
    List String → Table → Option Table
  | [], t => f t
  | name :: path, t =>
    change name (fun
      | none => (along fresh enter f path []).map (.table fresh)
      | some (.table kind members) =>
        if enter kind then (along fresh enter f path members).map (.table kind) else none
      | some (.tables items) => (changeLast (along fresh enter f path) items).map .tables
      | some _ => none) t

def put (name : String) (v : Node) : Table → Option Table :=
  change name fun
    | none => some v
    | some _ => none

/-- Puts a member into a table that dotted keys have made. -/
def putUnder (parent name : String) (v : Node) : Table → Option Table :=
  change parent fun
    | none => some (.table .dotted [(name, v)])
    | some (.table .dotted members) => (put name v members).map (.table .dotted)
    | some _ => none

def openToDots : Kind → Bool
  | .implicit | .dotted => true
  | .explicit | .inline => false

def assign (path : List String) (v : Node) (t : Table) : Option Table :=
  match path.reverse with
  | [] => none
  | [name] => put name v t
  | name :: parent :: before => along .dotted openToDots (putUnder parent name v) before.reverse t

def inlineTable (pairs : List (List String × Node)) : Option Node :=
  (pairs.foldlM (fun t p => assign p.1 p.2 t) []).map (.table .inline)

def openTable (name : String) : Table → Option Table :=
  change name fun
    | none => some (.table .explicit [])
    | some (.table .implicit members) => some (.table .explicit members)
    | some _ => none

def openNextTable (name : String) : Table → Option Table :=
  change name fun
    | none => some (.tables [[]])
    | some (.tables items) => some (.tables (items ++ [[]]))
    | some _ => none

def openToHeaders (kind : Kind) : Bool := kind != .inline

/-! ## Statements -/

/-- A value; `depth` containers may be nested in it. -/
def readValue (depth : Nat) : ValueReader
  | '[' :: r =>
    match depth with
    | 0 => none
    | depth + 1 => (readItems (readValue depth) (r.length + 1) r).map fun (vs, r) => (.array vs, r)
  | '\x7b' :: r =>
    match depth, skipBlanks r with
    | 0, _ => none
    | _, '\x7d' :: r => some (.table .inline [], r)
    | depth + 1, r => do
      let (pairs, r) ← readPairs (readValue depth) r.length r
      return (← inlineTable pairs, r)
  | '"' :: r => (readText ('"' :: r)).map fun (s, r) => (.text (String.ofList s), r)
  | '\'' :: r => (readText ('\'' :: r)).map fun (s, r) => (.text (String.ofList s), r)
  | cs => readWord cs

inductive Statement where
  | header (path : List String)
  | nextHeader (path : List String)
  | pair (path : List String) (value : Node)

def readLineEnd (cs : List Char) : Option (List Char) :=
  let r := match skipBlanks cs with
    | '#' :: r => r.dropWhile isPlain
    | r => r
  match r with
  | [] => some []
  | '\n' :: r => some r
  | '\r' :: '\n' :: r => some r
  | _ => none

/-- The statement at the start of a line, if the line is not empty. -/
def readStatement (cs : List Char) : Option (Option Statement × List Char) :=
  match skipBlanks cs with
  | [] => some (none, [])
  | '#' :: r => some (none, '#' :: r)
  | '\n' :: r => some (none, '\n' :: r)
  | '\r' :: r => some (none, '\r' :: r)
  | '[' :: '[' :: r => do
    let (path, r) ← readPath r
    match r with
    | ']' :: ']' :: r => return (some (.nextHeader path), r)
    | _ => none
  | '[' :: r => do
    let (path, r) ← readPath r
    match r with
    | ']' :: r => return (some (.header path), r)
    | _ => none
  | cs => do
    let ((path, v), r) ← readPair (readValue (nestingLimit - 1)) cs
    return (some (.pair path v), r)

/-- The statements of a file; every line takes one character at least. -/
def readStatements : Nat → List Char → Option (List Statement)
  | _, [] => some []
  | 0, _ => none
  | fuel + 1, cs => do
    let (statement, r) ← readStatement cs
    let rest ← readStatements fuel (← readLineEnd r)
    return statement.toList ++ rest

/-- A file part way through: its table and the path of the table opened last. -/
structure Building where
  root : Table := []
  opened : List String := []

def Building.take (b : Building) : Statement → Option Building
  | .header path => do
    let name ← path.getLast?
    let root ← along .implicit openToHeaders (openTable name) path.dropLast b.root
    return ⟨root, path⟩
  | .nextHeader path => do
    let name ← path.getLast?
    let root ← along .implicit openToHeaders (openNextTable name) path.dropLast b.root
    return ⟨root, path⟩
  | .pair path v => do
    let root ← along .implicit openToHeaders (assign path v) b.opened b.root
    return { b with root }

/-- A mark of the byte order at the start is passed over. -/
def dropByteOrderMark : List Char → List Char
  | '\uFEFF' :: r => r
  | cs => cs

def read (s : String) : Option Table := do
  let cs := dropByteOrderMark s.toList
  let statements ← readStatements (cs.length + 1) cs
  return (← statements.foldlM Building.take {}).root

end Ensemble.Toml
