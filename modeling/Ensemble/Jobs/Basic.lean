/-!
# Commands and how they end
-/

namespace Ensemble.Jobs

structure Command where
  program : String
  arguments : List String := []
  directory : Option String := none
  /-- Added to the environment; of two values for one name the later counts. -/
  environment : List (String × String) := []
  /-- Nobody waits for it. -/
  background : Bool := false

inductive Exit where
  | exited (code : Nat)
  /-- Ended by a signal; `dumped` tells that the system kept an image of it. -/
  | signalled (signal : Nat) (dumped : Bool)
deriving DecidableEq

def signalNames : List (Nat × String) := [
  (1, "HUP"), (2, "INT"), (3, "QUIT"), (4, "ILL"), (5, "TRAP"), (6, "ABRT"), (7, "BUS"),
  (8, "FPE"), (9, "KILL"), (10, "USR1"), (11, "SEGV"), (12, "USR2"), (13, "PIPE"), (14, "ALRM"),
  (15, "TERM"), (16, "STKFLT"), (17, "CHLD"), (18, "CONT"), (19, "STOP"), (20, "TSTP"),
  (21, "TTIN"), (22, "TTOU"), (23, "URG"), (24, "XCPU"), (25, "XFSZ"), (26, "VTALRM"),
  (27, "PROF"), (28, "WINCH"), (29, "IO"), (30, "PWR"), (31, "SYS")]

namespace Exit

def code? : Exit → Option Nat
  | .exited code => some code
  | .signalled .. => none

def isSuccess (e : Exit) : Bool := e == .exited 0

def description : Exit → String
  | .exited code => s!"exit status: {code}"
  | .signalled signal dumped =>
    s!"signal: {signal}" ++ ((signalNames.lookup signal).map fun n => s!" (SIG{n})").getD "" ++
      if dumped then " (core dumped)" else ""

end Exit

structure Output where
  stdout : String := ""
  stderr : String := ""
deriving DecidableEq

def Output.combined (o : Output) : String := o.stdout ++ o.stderr

inductive RunOutcome where
  | completed (exit : Exit) (output : Output)
  /-- It runs on. `requested` tells that nobody waited for it. -/
  | background (pid : Nat) (output : Output) (requested : Bool)
  /-- It was terminated because the call was cancelled. -/
  | interrupted (output : Output)

/-- What is known of a command in the background. `elapsed` is in milliseconds. -/
inductive LogsOutcome where
  | notFound
  | running (output : Output) (elapsed : Nat)
  | completed (exit : Exit) (output : Output)

end Ensemble.Jobs
