import Ensemble.Run.Suggestions
import Ensemble.Session.Store

/-!
# Running stored sessions

A manager runs the sessions of a store, one run a session at a time. Every call gets a ticket, and
every ticket goes the same way: it claims its session, loads a copy of it, runs the copy, hands on
the events of the run one by one, writes the copy back, lets go of the session, and closes the
stream of its caller. The steps of different tickets may come in any order. A call that is refused
gives its ticket back and leaves nothing behind.
-/

namespace Ensemble

inductive Call where
  /-- A run, perhaps with a message of the user first. -/
  | run (message : Option String)
  | resume (answer : Answer)

/-- The session as the run of a call finds it. -/
def Call.prepare {σ : Type} (setup : Setup σ) (stored : Session) : Call → Session
  | .run (some content) => stored.addUser content setup.now
  | _ => stored

def Call.perform {σ : Type} (call : Call) (setup : Setup σ) (stored : Session) (c : Cancellation)
    (world : σ) : Except Error (Run σ) :=
  match call with
  | .run _ => setup.run (call.prepare setup stored) c world
  | .resume answer => setup.resume stored answer c world

inductive Stage where
  | claimed
  | loaded (session : Session)
  /-- What is still to be handed on, and what is to be written back. -/
  | running (waiting : List Event) (session : Session)
  | saved
  /-- Another call may claim the session; the caller has yet to see the end of the stream. -/
  | released

structure Ticket where
  number : Nat
  id : String
  stage : Stage

/-- The session cannot be claimed by another call. -/
def Ticket.holds (t : Ticket) : Bool :=
  match t.stage with
  | .released => false
  | _ => true

structure Manager where
  store : Store := {}
  tickets : List Ticket := []
  next : Nat := 0

namespace Manager

variable {σ : Type}

def create (m : Manager) (s : Session) : Except Error Manager :=
  (m.store.add s).map fun store => { m with store }

def delete (m : Manager) (id : String) : Except Error Manager :=
  (m.store.delete id).map fun store => { m with store }

def holder? (m : Manager) (id : String) : Option Ticket :=
  m.tickets.find? fun t => t.id == id && t.holds

def isRunning (m : Manager) (id : String) : Bool := (m.holder? id).isSome

def ticket? (m : Manager) (number : Nat) : Option Ticket := m.tickets.find? (·.number == number)

def setStage (m : Manager) (number : Nat) (stage : Stage) : Manager :=
  { m with tickets := m.tickets.map fun t => if t.number = number then { t with stage } else t }

def discard (m : Manager) (number : Nat) : Manager :=
  { m with tickets := m.tickets.filter fun t => t.number ≠ number }

/-! ## The way of a ticket -/

/-- Claims a session, unless another call holds it. -/
def claim (m : Manager) (id : String) : Except Error (Nat × Manager) :=
  if m.isRunning id then .error (.sessionBusy id)
  else .ok (m.next, { m with tickets := m.tickets ++ [⟨m.next, id, .claimed⟩], next := m.next + 1 })

def load (m : Manager) (number : Nat) : Except Error Manager :=
  match m.ticket? number with
  | some ⟨_, id, .claimed⟩ => (m.store.get id).map fun s => m.setStage number (.loaded s)
  | _ => .ok m

def perform (m : Manager) (setup : Setup σ) (number : Nat) (call : Call) (c : Cancellation)
    (world : σ) : Except Error (Manager × σ) :=
  match m.ticket? number with
  | some ⟨_, _, .loaded s⟩ =>
    (call.perform setup s c world).map fun r =>
      (m.setStage number (.running r.events r.session), r.world)
  | _ => .ok (m, world)

def handOn (m : Manager) (number : Nat) : Option Event × Manager :=
  match m.ticket? number with
  | some ⟨_, _, .running (e :: rest) s⟩ => (some e, m.setStage number (.running rest s))
  | _ => (none, m)

/-- Writes the session back when every event has been handed on. A session deleted meanwhile stays
deleted. -/
def save (m : Manager) (number : Nat) : Manager :=
  match m.ticket? number with
  | some ⟨_, _, .running [] s⟩ =>
    let store := match m.store.update s with
      | .ok store => store
      | .error _ => m.store
    { m.setStage number .saved with store }
  | _ => m

def release (m : Manager) (number : Nat) : Manager :=
  match m.ticket? number with
  | some ⟨_, _, .saved⟩ => m.setStage number .released
  | _ => m

/-- The caller sees the end of the stream. -/
def close (m : Manager) (number : Nat) : Manager :=
  match m.ticket? number with
  | some ⟨_, _, .released⟩ => m.discard number
  | _ => m

/-! ## Whole calls -/

/-- A call up to its run. When it is refused the manager is as it was, apart from the number of the
next ticket. -/
def call (m : Manager) (setup : Setup σ) (id : String) (what : Call) (c : Cancellation) (world : σ) :
    Except Error Nat × Manager × σ :=
  match m.claim id with
  | .error e => (.error e, m, world)
  | .ok (number, m) =>
    match m.load number with
    | .error e => (.error e, m.discard number, world)
    | .ok m =>
      match m.perform setup number what c world with
      | .error e => (.error e, m.discard number, world)
      | .ok (m, world) => (.ok number, m, world)

def waiting (m : Manager) (number : Nat) : List Event :=
  match m.ticket? number with
  | some ⟨_, _, .running events _⟩ => events
  | _ => []

/-- The rest of a call, with the events its caller gets. -/
def drain (m : Manager) (number : Nat) : List Event × Manager :=
  let events := m.waiting number
  let m := events.foldl (fun m _ => (m.handOn number).2) m
  (events, ((m.save number).release number).close number)

end Manager

end Ensemble
