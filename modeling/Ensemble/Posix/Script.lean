/-!
# Scripts of the shell command language

Words are kept as they are written, in pieces that still have to be expanded. What stands inside a
substitution is kept as text and read when it is its turn.
-/

namespace Ensemble.Posix

/-- What is to be done with the value of a parameter. `colon` treats an empty value as none. -/
inductive Use where
  | plain
  | size
  | orElse (colon : Bool) (word : String)
  | orAssign (colon : Bool) (word : String)
  | orFail (colon : Bool) (word : String)
  | ifSet (colon : Bool) (word : String)
  | dropStart (longest : Bool) (pattern : String)
  | dropEnd (longest : Bool) (pattern : String)
deriving DecidableEq

inductive Piece where
  | text (s : String) (quoted : Bool)
  | parameter (name : String) (use : Use) (quoted : Bool)
  /-- What a script writes. -/
  | output (source : String) (quoted : Bool)
  | arithmetic (source : String) (quoted : Bool)
  /-- A substitution that has no meaning. -/
  | senseless
  /-- Something that was expanded already. -/
  | value (s : String) (quoted : Bool)
deriving DecidableEq

abbrev Word := List Piece

inductive Direction where
  | read
  | write
  | append
  /-- The target is the number of another descriptor, or a dash. -/
  | duplicate
  /-- The target is what is to be read. -/
  | here
deriving DecidableEq

structure Redirection where
  descriptor : Nat
  direction : Direction
  target : Word
deriving DecidableEq

inductive Script where
  | simple (line : Nat) (assignments : List (String × Word)) (words : List Word)
      (redirections : List Redirection)
  | sequence (first second : Script)
  | both (first second : Script)
  | either (first second : Script)
  | not (body : Script)
  | pipe (source sink : Script)
  /-- Nobody waits for it. -/
  | detached (body : Script)
  | subshell (body : Script)
  | redirected (body : Script) (redirections : List Redirection)
  | choice (condition yes no : Script)
  /-- Repeats while the condition succeeds, or with `until` as long as it fails. -/
  | repeat_ (until_ : Bool) (condition body : Script)
  /-- Without `given` over the positional parameters. -/
  | each (name : String) (given : Bool) (words : List Word) (body : Script)
  | select (subject : Word) (arms : Script)
  /-- One arm of a selection and the arms behind it. -/
  | arm (patterns : List Word) (body others : Script)
  | define (name : String) (body : Script)
  | empty
deriving DecidableEq

inductive ScriptFault where
  | unterminatedQuote
  | unterminated (what : String)
  | unexpected (what : String)
  | expected (what wanted : String)
  | missingBrackets
  | unclosedBackquote
  | missingBrace
  | badLoopVariable
deriving DecidableEq

def ScriptFault.message : ScriptFault → String
  | .unterminatedQuote => "Unterminated quoted string"
  | .unterminated what => "Unterminated " ++ what
  | .unexpected what => what ++ " unexpected"
  | .expected what wanted => what ++ " unexpected (expecting " ++ wanted ++ ")"
  | .missingBrackets => "Missing '))'"
  | .unclosedBackquote => "EOF in backquote substitution"
  | .missingBrace => "Missing '\x7d'"
  | .badLoopVariable => "Bad for loop variable"

end Ensemble.Posix
