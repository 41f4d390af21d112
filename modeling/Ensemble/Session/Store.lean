import Ensemble.Error
import Ensemble.Session.Basic

/-!
# Stored sessions

A store keeps sessions by their id. Updating never creates a session.
-/

namespace Ensemble

structure Store where
  sessions : List Session := []

namespace Store

def empty : Store := {}

def get? (st : Store) (id : String) : Option Session := st.sessions.find? (·.id == id)

def get (st : Store) (id : String) : Except Error Session :=
  match st.get? id with
  | some s => .ok s
  | none => .error (.sessionNotFound id)

def add (st : Store) (s : Session) : Except Error Store :=
  if (st.get? s.id).isSome then .error (.invalidRequest s!"session {s.id} already exists")
  else .ok ⟨st.sessions ++ [s]⟩

def update (st : Store) (s : Session) : Except Error Store :=
  if (st.get? s.id).isSome then
    .ok ⟨st.sessions.map fun old => if old.id = s.id then s else old⟩
  else .error (.sessionNotFound s.id)

def delete (st : Store) (id : String) : Except Error Store :=
  if (st.get? id).isSome then .ok ⟨st.sessions.filter fun s => s.id ≠ id⟩
  else .error (.sessionNotFound id)

/-- Oldest first; sessions created at one moment stay in the order they were added. -/
def list (st : Store) : List Session :=
  st.sessions.mergeSort fun a b => a.createdAt.le b.createdAt

end Store

end Ensemble
