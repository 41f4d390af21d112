import Ensemble.Text.Digits

/-!
# Texts in settings files

A text stands between double quotes, where a backslash escapes, or between single quotes as it
is. Three quotes on each side make room for line ends. Writing takes the first of these forms
that needs no escapes.
-/

namespace Ensemble.Toml

/-- A character that may stand as it is in a text on one line or in a comment. -/
def isPlain (c : Char) : Bool := c == '\t' || (' ' ≤ c && c != '\x7f')

def isBlankChar (c : Char) : Bool := c == ' ' || c == '\t'

/-! ## Reading -/

def unescape? : Char → Option Char
  | 'b' => some '\x08'
  | 't' => some '\t'
  | 'n' => some '\n'
  | 'f' => some '\x0c'
  | 'r' => some '\r'
  | '"' => some '"'
  | '\\' => some '\\'
  | _ => none

def scalar? (digits : List Char) : Option Char := do
  let n ← Text.hexNumber? digits
  if n < 0xD800 ∨ (0xDFFF < n ∧ n < 0x110000) then some (Char.ofNat n) else none

abbrev TextReader := List Char → Option (List Char × List Char)

def push (c : Option Char) (r : Option (List Char × List Char)) : Option (List Char × List Char) :=
  match c, r with
  | some c, some (cs, rest) => some (c :: cs, rest)
  | _, _ => none

def readBasic : TextReader
  | [] => none
  | '"' :: r => some ([], r)
  | '\\' :: 'u' :: a :: b :: c :: d :: r => push (scalar? [a, b, c, d]) (readBasic r)
  | '\\' :: 'U' :: a :: b :: c :: d :: e :: f :: g :: h :: r =>
    push (scalar? [a, b, c, d, e, f, g, h]) (readBasic r)
  | '\\' :: c :: r => push (unescape? c) (readBasic r)
  | c :: r => if isPlain c then push (some c) (readBasic r) else none

def readLiteral : TextReader
  | [] => none
  | '\'' :: r => some ([], r)
  | c :: r => if isPlain c then push (some c) (readLiteral r) else none

/-- Where a reader of several lines stands: in the text, behind a backslash before the line end, or
in the blanks and line ends that such a backslash takes away. -/
inductive Gap where
  | none
  | before
  | after
deriving DecidableEq

/-- The rest of a text in three double quotes. Up to two quotes before the last three belong to the
text. -/
def readMultiBasic : Gap → TextReader
  | _, [] => .none
  | .before, '\n' :: r => readMultiBasic .after r
  | .before, '\r' :: '\n' :: r => readMultiBasic .after r
  | .before, c :: r => if isBlankChar c then readMultiBasic .before r else .none
  | .after, '\n' :: r => readMultiBasic .after r
  | .after, ' ' :: r => readMultiBasic .after r
  | .after, '\t' :: r => readMultiBasic .after r
  | gap, '\r' :: '\n' :: r =>
    if gap = .after then readMultiBasic .after r else push (some '\n') (readMultiBasic .none r)
  | _, '"' :: '"' :: '"' :: '"' :: '"' :: r => some (['"', '"'], r)
  | _, '"' :: '"' :: '"' :: '"' :: r => some (['"'], r)
  | _, '"' :: '"' :: '"' :: r => some ([], r)
  | _, '\\' :: 'u' :: a :: b :: c :: d :: r => push (scalar? [a, b, c, d]) (readMultiBasic .none r)
  | _, '\\' :: 'U' :: a :: b :: c :: d :: e :: f :: g :: h :: r =>
    push (scalar? [a, b, c, d, e, f, g, h]) (readMultiBasic .none r)
  | _, '\\' :: '\n' :: r => readMultiBasic .after r
  | _, '\\' :: '\r' :: '\n' :: r => readMultiBasic .after r
  | _, '\\' :: c :: r =>
    if isBlankChar c then readMultiBasic .before r else push (unescape? c) (readMultiBasic .none r)
  | _, '\n' :: r => push (some '\n') (readMultiBasic .none r)
  | _, c :: r => if isPlain c then push (some c) (readMultiBasic .none r) else .none

def readMultiLiteral : TextReader
  | [] => none
  | '\'' :: '\'' :: '\'' :: '\'' :: '\'' :: r => some (['\'', '\''], r)
  | '\'' :: '\'' :: '\'' :: '\'' :: r => some (['\''], r)
  | '\'' :: '\'' :: '\'' :: r => some ([], r)
  | '\r' :: '\n' :: r => push (some '\n') (readMultiLiteral r)
  | '\n' :: r => push (some '\n') (readMultiLiteral r)
  | c :: r => if isPlain c then push (some c) (readMultiLiteral r) else none

/-- A line end right behind the opening quotes is not part of the text. -/
def dropLineEnd : List Char → List Char
  | '\n' :: r => r
  | '\r' :: '\n' :: r => r
  | cs => cs

def readText : TextReader
  | '"' :: '"' :: '"' :: r => readMultiBasic .none (dropLineEnd r)
  | '"' :: r => readBasic r
  | '\'' :: '\'' :: '\'' :: r => readMultiLiteral (dropLineEnd r)
  | '\'' :: r => readLiteral r
  | _ => none

def isBare (c : Char) : Bool := c.isAlphanum || c == '-' || c == '_'

def readKey : TextReader
  | '"' :: r => readBasic r
  | '\'' :: r => readLiteral r
  | cs =>
    match cs.takeWhile isBare with
    | [] => none
    | name => some (name, cs.dropWhile isBare)

/-! ## Writing -/

inductive Style where
  | basic
  | literal
  | multiBasic
  | multiLiteral
deriving DecidableEq

def isControl (c : Char) : Bool := c < ' ' || c == '\x7f'

/-- A character no form shows as it is. -/
def needsCode (c : Char) : Bool := isControl c && c != '\t' && c != '\n'

/-- The length of the longest run of `c`, with `current` of them just before. -/
def longestRun (c : Char) (current longest : Nat) : List Char → Nat
  | [] => longest
  | d :: rest =>
    if d = c then longestRun c (current + 1) (max longest (current + 1)) rest
    else longestRun c 0 longest rest

/-- The first form that shows the text as it is, or else one with escapes. -/
def Style.of (cs : List Char) : Style :=
  let coded := cs.any needsCode
  let backslash := cs.any (· == '\\')
  let lines := cs.any (· == '\n')
  let singles := longestRun '\'' 0 0 cs
  let doubles := longestRun '"' 0 0 cs
  if !coded && !backslash && doubles == 0 && !lines then .basic
  else if !coded && singles == 0 && !lines then .literal
  else if !coded && !backslash && doubles ≤ 2 then .multiBasic
  else if !coded && singles ≤ 2 then .multiLiteral
  else if lines then .multiBasic
  else .basic

def upperHex (n : Nat) : Char := (Nat.digitChar n).toUpper

/-- A control character between double quotes; `multi` keeps line ends. -/
def escapedControl (multi : Bool) (c : Char) : List Char :=
  if c = '\x08' then ['\\', 'b']
  else if c = '\t' then ['\\', 't']
  else if c = '\n' then if multi then ['\n'] else ['\\', 'n']
  else if c = '\x0c' then ['\\', 'f']
  else if c = '\r' then ['\\', 'r']
  else ['\\', 'u', '0', '0', upperHex (c.toNat / 16), upperHex (c.toNat % 16)]

/-- The inside of double quotes. A run of more than `limit` quotes is broken by escapes; `run`
quotes stand just before. -/
def printEscaped (multi : Bool) (limit run : Nat) : List Char → List Char
  | [] => []
  | c :: cs =>
    if c = '"' then
      if run < limit then '"' :: printEscaped multi limit (run + 1) cs
      else '\\' :: '"' :: printEscaped multi limit 0 cs
    else if c = '\\' then '\\' :: '\\' :: printEscaped multi limit 0 cs
    else if isControl c then escapedControl multi c ++ printEscaped multi limit 0 cs
    else c :: printEscaped multi limit 0 cs

def opening (quote : Char) (cs : List Char) : List Char :=
  quote :: quote :: quote :: (if cs.any (· == '\n') then ['\n'] else [])

def Style.print (cs : List Char) : Style → List Char
  | .basic => '"' :: printEscaped false 0 0 cs ++ ['"']
  | .literal => '\'' :: cs ++ ['\'']
  | .multiBasic => opening '"' cs ++ printEscaped true 2 0 cs ++ ['"', '"', '"']
  | .multiLiteral => opening '\'' cs ++ cs ++ ['\'', '\'', '\'']

def printText (cs : List Char) : List Char := (Style.of cs).print cs

/-- A key stands without quotes if it can, and always on one line. -/
def printKey (cs : List Char) : List Char :=
  if !cs.isEmpty && cs.all isBare then cs
  else
    let coded := cs.any fun c => isControl c && c != '\t'
    if !coded && !cs.any (fun c => c == '\\' || c == '"') then Style.basic.print cs
    else if !coded && !cs.any (· == '\'') then Style.literal.print cs
    else Style.basic.print cs

end Ensemble.Toml
