import Ensemble.Proofs.Manager.Histories

/-!
# The way of a ticket

Each ticket goes its way, from its claim to the end of its caller's stream, whatever the others do
(`Manager.Goes.lived`); and at any time at most one of them holds a session (`Manager.Goes.alone`).
-/

namespace Ensemble.Manager

variable {σ : Type} {t : Team σ} {m : Manager} {st : Store} {ds : List (Deed t)}

/-! ## At most one -/

theorem Turn.holds {d : Deed t} {k : Option Ticket} {k' : Ticket} (h : Turn t d k (some k'))
    (holds : k'.holds = true) :
    (∃ before, k = some before ∧ before.id = k'.id ∧ before.holds = true) ∨
      ∃ n, d = .claimed n k'.id := by
  cases h with
  | claimed n id => exact .inr ⟨n, rfl⟩
  | released n id => cases holds
  | loaded | began | handedOn | saved => exact .inl ⟨_, rfl, rfl, rfl⟩

theorem Does.holds {d : Deed t} {m' : Manager} (h : Does t m d m') (numbered : m.Numbered)
    {n : Nat} {id : String} (held : m'.Holds n id) :
    m.Holds n id ∨ (m.isRunning id = false ∧ d.owner = some n) := by
  obtain ⟨k', found, same, holds⟩ := held
  by_cases own : d.owner = some n
  · have turn := h.change.turn numbered own
    rw [found] at turn
    rcases turn.holds holds with ⟨k, stood, before, held⟩ | ⟨number, rfl⟩
    · exact .inl ⟨k, stood, before.trans same, held⟩
    · right
      refine ⟨?_, own⟩
      cases h with
      | claimed claims =>
        rw [← same]
        exact (claim_eq_ok claims).1
  · rw [h.change.others own] at found
    exact .inl ⟨k', found, same, holds⟩

theorem Goes.alone (h : Goes t { store := st } ds m) {id : String} {n n' : Nat}
    (held : m.Holds n id) (held' : m.Holds n' id) : n = n' := by
  induction h generalizing n n' with
  | start =>
    obtain ⟨k, found, -⟩ := held
    cases found
  | @next ds m m' d before does ih =>
    have free : m.isRunning id = false → ∀ x, ¬ m.Holds x id := by
      intro idle x holds
      rw [(isRunning_iff before.numbered id).mpr ⟨x, holds⟩] at idle
      cases idle
    -- A deed makes at most one new holder, and only where there was none.
    rcases does.holds before.numbered held with old | ⟨idle, own⟩
    · rcases does.holds before.numbered held' with old' | ⟨idle', -⟩
      · exact ih old old'
      · exact absurd old (free idle' n)
    · rcases does.holds before.numbered held' with old' | ⟨-, own'⟩
      · exact absurd old' (free idle n')
      · exact Option.some.inj (own.symm.trans own')

/-! ## The way of a ticket -/

namespace Accepted

/-- Until the driver begins. -/
def opening (a : Accepted t) : List (Deed t) :=
  [.claimed a.number a.id, .loaded a.number a.stored, .began a]

/-- Until every event has been handed on. -/
def told (a : Accepted t) : List (Deed t) :=
  a.opening ++ a.ran.events.map (.handedOn a.number)

/-- The end of the stream comes after the session was written back and let go of. -/
def way (a : Accepted t) : List (Deed t) :=
  a.told ++ [.saved a.number a.ran.session, .released a.number, .closed a.number]

end Accepted

/-- What a ticket has done, and where it stands now. -/
inductive Lived (t : Team σ) (n : Nat) : List (Deed t) → Option Ticket → Prop where
  | unborn : Lived t n [] none
  | claimed (id : String) : Lived t n [.claimed n id] (some ⟨n, id, .claimed⟩)
  | missing (id : String) (e : Error) : Lived t n [.claimed n id, .refused n e] none
  | loaded (id : String) (s : Session) :
      Lived t n [.claimed n id, .loaded n s] (some ⟨n, id, .loaded s⟩)
  | refused (id : String) (s : Session) (e : Error) :
      Lived t n [.claimed n id, .loaded n s, .refused n e] none
  | running (a : Accepted t) (own : a.number = n) (done waiting : List Event)
      (split : a.ran.events = done ++ waiting) :
      Lived t n (a.opening ++ done.map (.handedOn n))
        (some ⟨n, a.id, .running waiting a.ran.session⟩)
  | saved (a : Accepted t) (own : a.number = n) :
      Lived t n (a.told ++ [.saved n a.ran.session]) (some ⟨n, a.id, .saved⟩)
  | released (a : Accepted t) (own : a.number = n) :
      Lived t n (a.told ++ [.saved n a.ran.session, .released n]) (some ⟨n, a.id, .released⟩)
  | closed (a : Accepted t) (own : a.number = n) : Lived t n a.way none

theorem Lived.of_loaded {n : Nat} {past : List (Deed t)} {id : String} {s : Session}
    (h : Lived t n past (some ⟨n, id, .loaded s⟩)) : past = [.claimed n id, .loaded n s] := by
  cases h with
  | loaded => rfl

theorem Lived.step {n : Nat} {past : List (Deed t)} {d : Deed t} {k k' : Option Ticket}
    (h : Lived t n past k) (turn : Turn t d k k') (own : d.owner = some n)
    (new : ∀ id, d = .claimed n id → past = []) : Lived t n (past ++ [d]) k' := by
  -- The stage that a deed needs says what the call has done before.
  cases turn with
  | claimed number id =>
    cases own
    rw [new id rfl]
    exact .claimed id
  | loaded number id s =>
    cases own
    cases h with
    | claimed => exact .loaded id s
  | missing number id e =>
    cases own
    cases h with
    | claimed => exact .missing id e
  | began a =>
    cases own
    rw [h.of_loaded]
    exact .running a rfl [] a.ran.events rfl
  | refused number id s e =>
    cases own
    cases h with
    | loaded => exact .refused id s e
  | handedOn number id e rest s =>
    cases own
    cases h with
    | running a own done waiting split =>
      have later : a.ran.events = (done ++ [e]) ++ rest := by simp [split]
      have moved := Lived.running a own (done ++ [e]) rest later
      simpa [List.append_assoc] using moved
  | saved number id s =>
    cases own
    cases h with
    | running a own done waiting split =>
      have all : a.ran.events = done := by simpa using split
      have moved := Lived.saved a own
      rw [Accepted.told, all, own] at moved
      exact moved
  | released number id =>
    cases own
    cases h with
    | saved a own =>
      have moved := Lived.released a own
      simpa [List.append_assoc] using moved
  | closed number id =>
    cases own
    cases h with
    | released a own =>
      have moved := Lived.closed a own
      subst own
      simpa [Accepted.way, List.append_assoc] using moved

theorem Goes.lived (h : Goes t { store := st } ds m) (n : Nat) :
    Lived t n (stepsOf n ds) (m.ticket? n) := by
  induction h with
  | start => exact .unborn
  | @next ds m m' d before does ih =>
    rw [stepsOf_append]
    by_cases own : d.owner = some n
    · have alone : stepsOf n [d] = [d] := by simp [stepsOf, own]
      rw [alone]
      refine ih.step (does.change.turn before.numbered own) own ?_
      rintro id rfl
      cases does with
      | claimed claims =>
        obtain ⟨-, rfl, -⟩ := claim_eq_ok claims
        exact before.stepsOf_next (Nat.le_refl _)
    · have others : stepsOf n [d] = [] := by simp [stepsOf, own]
      rw [others, List.append_nil]
      rwa [does.change.others own]

end Ensemble.Manager
