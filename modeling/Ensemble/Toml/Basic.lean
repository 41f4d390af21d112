import Ensemble.Json.Document

/-!
# Values of settings files

Tables remember how they came about, for that decides whether they may be added to later.
-/

namespace Ensemble.Toml

inductive Kind where
  /-- Written in braces; complete. -/
  | inline
  /-- Opened by a header. -/
  | explicit
  /-- On the way to a header. -/
  | implicit
  /-- On the way of a dotted key. -/
  | dotted
deriving DecidableEq

inductive Node where
  | text (s : String)
  | whole (n : Int)
  | float (x : Float)
  | bool (b : Bool)
  /-- A date or a time in its standard form. -/
  | moment (s : String)
  | array (items : List Node)
  | table (kind : Kind) (members : List (String × Node))
  /-- A list of tables, each opened by a header. -/
  | tables (items : List (List (String × Node)))

abbrev Table := List (String × Node)

/-- The member under which a date or a time is given to a reader who wants a table. -/
def momentMember : String := "$__toml_private_datetime"

mutual

/-- The document a reader of typed values sees. -/
def Node.toDoc : Node → Json.Doc
  | .text s => .text s
  | .whole n => .number (.whole n)
  | .float x => .number (.float x)
  | .bool b => .bool b
  | .moment s => .object [(.ok momentMember, .text s)] none
  | .array items => .array (nodeDocs items) none
  | .table _ members => .object (memberDocs members) none
  | .tables items => .array (tableDocs items) none

def nodeDocs : List Node → List Json.Doc
  | [] => []
  | n :: rest => n.toDoc :: nodeDocs rest

def memberDocs : List (String × Node) → List (Except Json.ReadError String × Json.Doc)
  | [] => []
  | (name, n) :: rest => (.ok name, n.toDoc) :: memberDocs rest

def tableDocs : List (List (String × Node)) → List Json.Doc
  | [] => []
  | t :: rest => .object (memberDocs t) none :: tableDocs rest

end

end Ensemble.Toml
