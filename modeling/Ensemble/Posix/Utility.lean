import Ensemble.Posix.Awk
import Ensemble.Posix.Condition

/-!
# Utilities

Programs that look at their arguments, the files and their whole input, and are done at once.
-/

namespace Ensemble.Posix

namespace Utility

structure Call where
  name : String
  arguments : List String
  input : List UInt8 := []
  directory : Path
  files : Files
  environment : List (String × String) := []

structure Reply where
  stdout : List UInt8 := []
  stderr : List UInt8 := []
  status : Nat := 0
  files : Files

def bytes (s : String) : List UInt8 := Text.Utf8.encode s

def isOperand (a : String) : Bool := !a.startsWith "-" || a == "-"

namespace Call

def done (c : Call) (text : String := "") (status : Nat := 0) : Reply :=
  { stdout := bytes text, status, files := c.files }

def complaint (c : Call) (text : String) : List UInt8 := bytes (c.name ++ ": " ++ text ++ "\n")

def fail (c : Call) (text : String) (status : Nat := 1) : Reply :=
  { stderr := c.complaint text, status, files := c.files }

def misuse (c : Call) (text : String) (status : Nat := 1) : Reply :=
  { stderr := c.complaint text ++ bytes ("Try '" ++ c.name ++ " --help' for more information.\n")
    status, files := c.files }

def flags (c : Call) : List Char :=
  (c.arguments.filter (!isOperand ·)).flatMap fun a => a.toList.tail

def hasFlag (c : Call) (f : Char) : Bool := c.flags.contains f

def operands (c : Call) : List String := c.arguments.filter isOperand

end Call

/-- Replies one after the other, each from the files that the one before leaves. -/
def each (c : Call) (f : Call → String → Reply) : List String → Reply
  | [] => { files := c.files }
  | x :: rest =>
    let first := f c x
    let more := each { c with files := first.files } f rest
    { stdout := first.stdout ++ more.stdout, stderr := first.stderr ++ more.stderr
      status := max first.status more.status, files := more.files }

/-- What is to be read: a file, or the input for a dash. -/
def source (c : Call) (name : String) : Except FileFault (List UInt8) :=
  if name = "-" then .ok c.input
  else if name = "/dev/zero" then .ok (List.replicate 1048576 0)
  else c.files.read c.directory name

/-- The contents of all operands, or the input when there are none, with complaints. -/
def sources (c : Call) (names : List String) : Reply :=
  each c (fun c name => match source c name with
    | .ok content => { stdout := content, files := c.files }
    | .error fault => c.fail (name ++ ": " ++ fault.message))
    (if names.isEmpty then ["-"] else names)

def filtered (c : Call) (names : List String) (f : List UInt8 → List UInt8) : Reply :=
  let r := sources c names
  { r with stdout := f r.stdout }

/-! ## Files -/

def list (c : Call) (name : String) : Reply :=
  match c.files.find c.directory name with
  | .ok (p, .directory) =>
    let names := c.files.names p
    let shown := if c.hasFlag 'd' then [name] else if c.hasFlag 'a' then "." :: ".." :: names
      else if c.hasFlag 'A' then names
      else names.filter fun n => !n.startsWith "."
    c.done (String.join (shown.map (· ++ "\n")))
  | .ok _ => c.done (name ++ "\n")
  | .error fault => c.fail ("cannot access '" ++ name ++ "': " ++ fault.message) 2

def touch (c : Call) (name : String) : Reply :=
  match c.files.resolve c.directory name with
  | .error fault => c.fail ("cannot touch '" ++ name ++ "': " ++ fault.message)
  | .ok p =>
    if (c.files.get? p).isSome then c.done
    else if c.files.isDirectory p.dropLast then { files := c.files.put p (.file [] false) }
    else c.fail ("cannot touch '" ++ name ++ "': " ++ FileFault.noEntry.message)

/-- Every directory on the way to a path. -/
def ways (p : Path) : List Path := (List.range p.length).map fun n => p.take (n + 1)

def makeDirectory (c : Call) (name : String) : Reply :=
  let refuse (fault : FileFault) :=
    c.fail ("cannot create directory '" ++ name ++ "': " ++ fault.message)
  if c.hasFlag 'p' then
    let lead := if name.startsWith "/" then [] else c.directory
    let p := lead ++ (name.splitOn "/").filter fun n => !n.isEmpty && n != "."
    { files := (ways p).foldl
        (fun fs way => if (fs.get? way).isSome then fs else fs.put way .directory) c.files }
  else
    match c.files.resolve c.directory name with
    | .error fault => refuse fault
    | .ok p =>
      if (c.files.get? p).isSome then refuse .alreadyThere
      else if c.files.isDirectory p.dropLast then { files := c.files.put p .directory }
      else refuse .noEntry

def removeFile (c : Call) (name : String) : Reply :=
  let refuse (fault : FileFault) := c.fail ("cannot remove '" ++ name ++ "': " ++ fault.message)
  match c.files.find c.directory name with
  | .error fault => if c.hasFlag 'f' then c.done else refuse fault
  | .ok (p, .directory) =>
    if c.hasFlag 'r' || c.hasFlag 'R' then { files := c.files.remove p } else refuse .isDirectory
  | .ok (p, _) => { files := c.files.remove p }

def removeDirectory (c : Call) (name : String) : Reply :=
  let refuse (fault : FileFault) := c.fail ("failed to remove '" ++ name ++ "': " ++ fault.message)
  match c.files.find c.directory name with
  | .error fault => refuse fault
  | .ok (p, .directory) =>
    if (c.files.names p).isEmpty then { files := c.files.remove p } else refuse .notEmpty
  | .ok _ => refuse .notDirectory

def transfer (c : Call) (move : Bool) : Reply :=
  match c.operands with
  | [a, b] =>
    match c.files.find c.directory a with
    | .error fault => c.fail ("cannot stat '" ++ a ++ "': " ++ fault.message)
    | .ok (p, e) =>
      let target : Except FileFault Path := match c.files.find c.directory b with
        | .ok (d, .directory) => .ok (d ++ p.getLast?.toList)
        | _ => c.files.resolve c.directory b
      match target with
      | .error fault => c.fail ("cannot create regular file '" ++ b ++ "': " ++ fault.message)
      | .ok q =>
        let files := if move then c.files.remove p else c.files
        { files := files.put q e }
  | [a] => c.misuse ("missing destination file operand after '" ++ a ++ "'")
  | _ => c.misuse "missing file operand"

def setExecutable (c : Call) (name : String) : Reply :=
  match c.files.find c.directory name with
  | .error fault => c.fail ("cannot access '" ++ name ++ "': " ++ fault.message)
  | .ok (p, .file content _) => { files := c.files.put p (.file content true) }
  | .ok _ => c.done

/-! ## Lines -/

def lines (content : List UInt8) : List (List UInt8) :=
  let (current, done) := content.foldl
    (fun (current, done) b =>
      if b == 10 then ([], (b :: current).reverse :: done) else (b :: current, done))
    (([], []) : List UInt8 × List (List UInt8))
  (if current.isEmpty then done else current.reverse :: done).reverse

/-- The number behind an option, given together with it or as the next argument. -/
def optionNumber (option : String) : List String → Option Int
  | [] => none
  | a :: rest =>
    if a = option then rest.head?.bind Arithmetic.number?
    else if a.startsWith option then Arithmetic.number? (String.ofList (a.toList.drop option.length))
    else optionNumber option rest

/-- The count that `head` and `tail` are asked for: of bytes, or else of lines. -/
def countOf (arguments : List String) : Bool × Nat :=
  match optionNumber "-c" arguments with
  | some n => (true, n.toNat)
  | none =>
    match optionNumber "-n" arguments with
    | some n => (false, n.toNat)
    | none =>
      match arguments.filterMap fun a =>
          if a.startsWith "-" then (String.ofList (a.toList.drop 1)).toNat? else none with
      | n :: _ => (false, n)
      | [] => (false, 10)

def withoutCount : List String → List String
  | [] => []
  | "-n" :: _ :: rest => withoutCount rest
  | "-c" :: _ :: rest => withoutCount rest
  | a :: rest => if a.startsWith "-" && a != "-" then withoutCount rest else a :: withoutCount rest

def first (arguments : List String) (content : List UInt8) : List UInt8 :=
  match countOf arguments with
  | (true, n) => content.take n
  | (false, n) => ((lines content).take n).flatten

def last (arguments : List String) (content : List UInt8) : List UInt8 :=
  match countOf arguments with
  | (true, n) => content.drop (content.length - n)
  | (false, n) =>
    let ls := lines content
    (ls.drop (ls.length - n)).flatten

def splitWords (cs : List UInt8) : Nat :=
  (cs.foldl (fun (inside, n) b =>
    if b == 32 || b == 10 || b == 9 then (false, n) else (true, if inside then n else n + 1))
    (false, 0)).2

def count (c : Call) : Reply :=
  let r := sources c c.operands
  if r.status ≠ 0 ∧ c.operands.length = 1 then r else
  filtered c c.operands fun content =>
    let parts := [('l', content.count 10), ('w', splitWords content), ('c', content.length)]
    let asked := parts.filter fun p => c.flags.contains p.1
    let suffix := match c.operands with
      | [name] => " " ++ name
      | _ => ""
    match asked with
    | [(_, n)] => bytes (toString n ++ suffix ++ "\n")
    | _ =>
      let shown := (if asked.isEmpty then parts else asked).map fun p =>
        let digits := toString p.2
        String.ofList (List.replicate (7 - digits.length) ' ') ++ digits
      bytes (" ".intercalate shown ++ suffix ++ "\n")

def lineText (l : List UInt8) : String := Text.Utf8.decodeLossy (l.filter (· != 10))

def sortLines (c : Call) (content : List UInt8) : List UInt8 :=
  let texts := (lines content).map lineText
  let before (a b : String) : Bool :=
    if c.hasFlag 'n' then
      decide (((Format.numberOf a).1, a) = ((Format.numberOf b).1, b))
        || decide ((Format.numberOf a).1 < (Format.numberOf b).1)
        || ((Format.numberOf a).1 == (Format.numberOf b).1 && decide (¬ b < a))
    else decide (¬ b < a)
  let sorted := texts.mergeSort before
  let sorted := if c.hasFlag 'r' then sorted.reverse else sorted
  let sorted := if c.hasFlag 'u' then sorted.eraseDups else sorted
  bytes (String.join (sorted.map (· ++ "\n")))

def sort (c : Call) : Reply :=
  match c.operands.find? fun name => (source c name).toOption.isNone with
  | some name =>
    let fault := match source c name with
      | .error fault => fault.message
      | .ok _ => ""
    c.fail ("cannot read: " ++ name ++ ": " ++ fault) 2
  | none => filtered c c.operands (sortLines c)

def charSet : List Char → List Char
  | [] => []
  | a :: '-' :: b :: rest =>
    ((List.range (b.toNat + 1 - a.toNat)).map fun n => Char.ofNat (a.toNat + n)) ++ charSet rest
  | '\\' :: 'n' :: rest => '\n' :: charSet rest
  | '\\' :: 't' :: rest => '\t' :: charSet rest
  | '\\' :: '0' :: rest => Char.ofNat 0 :: charSet rest
  | a :: rest => a :: charSet rest

def translate (c : Call) : Reply :=
  let set (s : String) : List UInt8 := bytes (String.ofList (charSet s.toList))
  match c.operands with
  | [a] => { stdout := c.input.filter fun x => !(set a).contains x, files := c.files }
  | a :: b :: _ =>
    let source := set a
    let target := set b
    let change (x : UInt8) : UInt8 := match source.idxOf? x with
      | some i => (target[i]?.or target.getLast?).getD x
      | none => x
    { stdout := c.input.map change, files := c.files }
  | [] => c.misuse "missing operand"

def occursIn (part : List Char) : List Char → Bool
  | [] => part.isEmpty
  | x :: rest => part.isPrefixOf (x :: rest) || occursIn part rest

def search (c : Call) : Reply :=
  match c.operands with
  | [] => c.fail "missing pattern" 2
  | part :: names =>
    let r := sources c names
    let lower (s : String) := if c.hasFlag 'i' then s.toLower else s
    let found := (lines r.stdout).filter fun l =>
      occursIn (lower part).toList (lower (lineText l)).toList != c.hasFlag 'v'
    let shown := if c.hasFlag 'q' then []
      else if c.hasFlag 'c' then bytes (toString found.length ++ "\n")
      else found.flatten
    { r with stdout := shown, status := if found.isEmpty then 1 else 0 }

def sequenceOf (c : Call) : Reply :=
  let numbers := c.operands.filterMap Arithmetic.number?
  let count (low step high : Int) : Reply :=
    if step = 0 then c.fail "invalid Zero increment value: '0'"
    else
      let n := ((high - low).fdiv step + 1).toNat
      let line (i : Nat) := toString (low + step * i) ++ "\n"
      c.done (String.join ((List.range n).map line))
  match numbers with
  | [high] => count 1 1 high
  | [low, high] => count low 1 high
  | [low, step, high] => count low step high
  | _ => c.misuse "missing operand"

def tee (c : Call) : Reply :=
  let r := each c (fun c name =>
    match c.files.openToWrite c.directory name (c.hasFlag 'a') with
    | .ok (p, files) => { files := files.append p c.input }
    | .error fault => c.fail (name ++ ": " ++ fault.message)) c.operands
  { r with stdout := c.input }

def baseName (name : String) : String :=
  let cs := (name.toList.reverse.dropWhile (· == '/'))
  let last := (cs.takeWhile (· != '/')).reverse
  if last.isEmpty then (if name.isEmpty then "" else "/") else String.ofList last

def directoryName (name : String) : String :=
  let cs := (name.toList.reverse.dropWhile (· == '/')).dropWhile (· != '/')
  let lead := (cs.dropWhile (· == '/')).reverse
  if lead.isEmpty then (if name.startsWith "/" then "/" else ".") else String.ofList lead

def test (c : Call) (arguments : List String) : Reply :=
  match Condition.evaluate c.files c.directory arguments with
  | .ok b => c.done "" (if b then 0 else 1)
  | .error fault => c.fail fault.message 2

def printf (c : Call) : Reply :=
  match c.arguments with
  | [] => c.fail "missing operand"
  | format :: arguments =>
    let p := Format.printf format arguments
    { stdout := p.bytes, stderr := (p.complaints.map c.complaint).flatten
      status := if p.complaints.isEmpty then 0 else 1, files := c.files }

def awk (c : Call) : Reply :=
  match c.arguments.head?.bind Awk.execute with
  | some (stdout, stderr, status) => { stdout, stderr, status, files := c.files }
  | none => c.fail "cannot run this program" 2

/-- Escapes count only when they are asked for. -/
def echo (c : Call) : Reply :=
  match c.arguments with
  | "-e" :: rest => { stdout := Format.echo true rest, files := c.files }
  | rest => { stdout := Format.echo false rest, files := c.files }

def operated (f : Call → String → Reply) (none : String) (c : Call) : Reply :=
  if c.operands.isEmpty then c.misuse none else each c f c.operands

def table : List (String × (Call → Reply)) := [
  ("true", fun c => c.done), ("false", fun c => c.done "" 1),
  ("echo", echo),
  ("printf", printf), ("test", fun c => test c c.arguments),
  ("[", fun c => test c c.arguments.dropLast),
  ("pwd", fun c => c.done (c.directory.text ++ "\n")),
  ("cat", fun c => sources c c.operands),
  ("ls", fun c => each c list (if c.operands.isEmpty then ["."] else c.operands)),
  ("touch", operated touch "missing file operand"),
  ("mkdir", operated makeDirectory "missing operand"), ("rm", operated removeFile "missing operand"),
  ("rmdir", operated removeDirectory "missing operand"),
  ("cp", fun c => transfer c false), ("mv", fun c => transfer c true),
  ("chmod", fun c => each c setExecutable (c.arguments.drop 1)),
  ("head", fun c => filtered c (withoutCount c.arguments) (first c.arguments)),
  ("tail", fun c => filtered c (withoutCount c.arguments) (last c.arguments)),
  ("wc", count), ("sort", sort), ("tr", translate),
  ("grep", search), ("seq", sequenceOf), ("tee", tee), ("awk", awk), ("mawk", awk),
  ("basename", fun c =>
    let name := baseName (c.operands.head?.getD "")
    let ending := (c.operands[1]?).getD ""
    c.done ((if name.endsWith ending && name != ending then (name.dropEnd ending.length).toString else name)
      ++ "\n")),
  ("dirname", fun c => c.done (directoryName (c.operands.head?.getD "") ++ "\n")),
  ("env", fun c => c.done (String.join (c.environment.map fun v => v.1 ++ "=" ++ v.2 ++ "\n"))),
  ("printenv", fun c =>
    match c.arguments with
    | [] => c.done (String.join (c.environment.map fun v => v.1 ++ "=" ++ v.2 ++ "\n"))
    | name :: _ =>
      match c.environment.lookup name with
      | some v => c.done (v ++ "\n")
      | none => c.done "" 1),
  ("uname", fun c => c.done "Linux\n")]

def readsInput (name : String) (arguments : List String) : Bool :=
  let names := match name with
    | "grep" => (arguments.filter isOperand).drop 1
    | "head" => withoutCount arguments
    | "tail" => withoutCount arguments
    | _ => arguments.filter isOperand
  if name ∈ ["tr", "tee"] then true
  else name ∈ ["cat", "head", "tail", "wc", "sort", "grep"] && (names.isEmpty || names.contains "-")

/-- What is there is all a utility wants to see. -/
def isSated (name : String) (arguments : List String) (input : List UInt8) : Bool :=
  name == "head" &&
    match countOf arguments with
    | (true, n) => n ≤ input.length
    | (false, n) => n ≤ input.count 10

end Utility

end Ensemble.Posix
