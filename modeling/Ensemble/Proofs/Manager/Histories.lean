import Mathlib.Data.List.Nodup
import Ensemble.Manager
import Ensemble.Proofs.Growth
import Ensemble.Proofs.Session.Store

/-!
# Histories of a manager

What goes on around a manager is a list of deeds: the steps of the tickets, in any order, and
sessions that are created and deleted between them. Each deed is one of the library's functions
(`Manager.Does`), and begins at a ticket that stands where the function is called for.

A driver works on a copy of its session that nobody else can reach, so all its steps are taken
together when it begins. Its models, its tools and its cancellation are its own as well: whatever
other drivers do to them meanwhile is part of its world.
-/

namespace Ensemble

namespace Manager

/-! ## Tickets -/

variable {m : Manager}

theorem number_of_ticket? {n : Nat} {k : Ticket} (h : m.ticket? n = some k) : k.number = n := by
  simpa using List.find?_some h

theorem mem_of_ticket? {n : Nat} {k : Ticket} (h : m.ticket? n = some k) : k ∈ m.tickets :=
  List.mem_of_find?_eq_some h

theorem ticket?_setStage (m : Manager) (n : Nat) (stage : Stage) (k : Nat) :
    (m.setStage n stage).ticket? k =
      if k = n then (m.ticket? n).map ({ · with stage }) else m.ticket? k := by
  have keeps (x : Ticket) :
      ((if x.number = n then { x with stage } else x).number == k) = (x.number == k) := by
    by_cases same : x.number = n <;> simp [same]
  have mapped : (m.setStage n stage).ticket? k =
      (m.ticket? k).map fun x => if x.number = n then { x with stage } else x :=
    find?_map_of_keeps keeps m.tickets
  rw [mapped]
  cases found : m.ticket? k with
  | none =>
    by_cases same : k = n
    · subst same
      simp [found]
    · simp [same]
  | some x =>
    have number := number_of_ticket? found
    by_cases same : k = n
    · subst same
      simp [found, number]
    · simp [number, same]

theorem ticket?_discard (m : Manager) (n k : Nat) :
    (m.discard n).ticket? k = if k = n then none else m.ticket? k := by
  unfold discard ticket?
  by_cases same : k = n
  · subst same
    simp [List.find?_eq_none]
  · rw [if_neg same]
    apply find?_filter_of_imp
    intro x found
    have number : x.number = k := by simpa using found
    simpa [number] using same

/-- Tickets are numbered in the order in which they were given out. -/
structure Numbered (m : Manager) : Prop where
  sorted : (m.tickets.map (·.number)).Pairwise (· < ·)
  below : ∀ k ∈ m.tickets, k.number < m.next

namespace Numbered

theorem ticket?_of_mem (h : m.Numbered) {k : Ticket} (among : k ∈ m.tickets) :
    m.ticket? k.number = some k := by
  have distinct : (m.tickets.map (·.number)).Nodup := h.sorted.imp Nat.ne_of_lt
  cases found : m.ticket? k.number with
  | none =>
    have absent := List.find?_eq_none.mp found k among
    simp at absent
  | some x =>
    congr 1
    exact List.inj_on_of_nodup_map distinct (mem_of_ticket? found) among (number_of_ticket? found)

theorem fresh (h : m.Numbered) {n : Nat} (beyond : m.next ≤ n) : m.ticket? n = none := by
  cases found : m.ticket? n with
  | none => rfl
  | some k =>
    have bound := h.below k (mem_of_ticket? found)
    rw [number_of_ticket? found] at bound
    omega

theorem setStage (h : m.Numbered) (n : Nat) (stage : Stage) : (m.setStage n stage).Numbered := by
  have same : (m.setStage n stage).tickets.map (·.number) = m.tickets.map (·.number) := by
    simp only [Manager.setStage, List.map_map]
    apply List.map_congr_left
    intro x among
    by_cases same : x.number = n <;> simp [same]
  constructor
  · rw [same]
    exact h.sorted
  · intro k among
    have number : k.number ∈ m.tickets.map (·.number) := by
      rw [← same]
      exact List.mem_map_of_mem among
    obtain ⟨x, among, eq⟩ := List.mem_map.mp number
    rw [← eq]
    exact h.below x among

theorem discard (h : m.Numbered) (n : Nat) : (m.discard n).Numbered := by
  constructor
  · exact h.sorted.sublist (List.filter_sublist.map _)
  · intro k among
    exact h.below k (List.mem_filter.mp among).1

theorem append (h : m.Numbered) (id : String) (stage : Stage) :
    Numbered { m with tickets := m.tickets ++ [⟨m.next, id, stage⟩], next := m.next + 1 } := by
  constructor
  · simp only [List.map_append, List.map_cons, List.map_nil, List.pairwise_append]
    refine ⟨h.sorted, List.pairwise_singleton _ _, ?_⟩
    simpa using h.below
  · intro k among
    rcases List.mem_append.mp among with old | new
    · exact Nat.lt_succ_of_lt (h.below k old)
    · simp only [List.mem_singleton] at new
      subst new
      exact Nat.lt_succ_self m.next

theorem congr {m' : Manager} (h : m.Numbered) (tickets : m'.tickets = m.tickets)
    (next : m'.next = m.next) : m'.Numbered := by
  constructor
  · rw [tickets]
    exact h.sorted
  · rw [tickets, next]
    exact h.below

end Numbered

theorem holds_of_stage {k : Ticket} (h : k.stage ≠ .released) : k.holds = true := by
  unfold Ticket.holds
  split
  · rename_i released
    exact absurd released h
  · rfl

def Holds (m : Manager) (n : Nat) (id : String) : Prop :=
  ∃ k, m.ticket? n = some k ∧ k.id = id ∧ k.holds = true

theorem isRunning_iff (h : m.Numbered) (id : String) :
    m.isRunning id = true ↔ ∃ n, m.Holds n id := by
  simp only [isRunning, holder?, List.find?_isSome, Bool.and_eq_true, beq_iff_eq]
  constructor
  · rintro ⟨k, among, same, holds⟩
    exact ⟨k.number, k, h.ticket?_of_mem among, same, holds⟩
  · rintro ⟨n, k, found, same, holds⟩
    exact ⟨k, mem_of_ticket? found, same, holds⟩

/-! ## Deeds -/

variable {σ : Type} {t : Team σ}

/-- A call whose driver began: where it began, and how it ran. -/
structure Accepted (t : Team σ) where
  number : Nat
  id : String
  what : Call
  on : Occasion σ
  stored : Session
  ran : Run σ
  performs : what.perform (on.setup t) stored on.cancel on.world = .ok ran

inductive Deed (t : Team σ) where
  | claimed (number : Nat) (id : String)
  | turnedAway (id : String) (e : Error)
  | loaded (number : Nat) (s : Session)
  | began (a : Accepted t)
  /-- A call that had claimed its session is not accepted after all. -/
  | refused (number : Nat) (e : Error)
  | handedOn (number : Nat) (e : Event)
  | saved (number : Nat) (s : Session)
  | released (number : Nat)
  | closed (number : Nat)
  | created (s : Session)
  | deleted (id : String)

def Deed.owner : Deed t → Option Nat
  | .claimed n _ | .loaded n _ | .refused n _ | .handedOn n _ | .saved n _ | .released n
  | .closed n => some n
  | .began a => some a.number
  | .turnedAway .. | .created _ | .deleted _ => none

def Deed.write (id : String) (old : Option Session) : Deed t → Option Session
  | .saved _ s => if s.id = id then old.map fun _ => s else old
  | .created s => if s.id = id then some s else old
  | .deleted id' => if id' = id then none else old
  | _ => old

inductive Does (t : Team σ) : Manager → Deed t → Manager → Prop where
  | claimed {m m' : Manager} {n : Nat} {id : String} (claims : m.claim id = .ok (n, m')) :
      Does t m (.claimed n id) m'
  | turnedAway {m : Manager} {id : String} {e : Error} (claims : m.claim id = .error e) :
      Does t m (.turnedAway id e) m
  | loaded {m m' : Manager} {n : Nat} {id : String} {s : Session}
      (stands : m.ticket? n = some ⟨n, id, .claimed⟩) (found : m.store.get id = .ok s)
      (loads : m.load n = .ok m') : Does t m (.loaded n s) m'
  | missing {m : Manager} {n : Nat} {id : String} {e : Error}
      (stands : m.ticket? n = some ⟨n, id, .claimed⟩) (loads : m.load n = .error e) :
      Does t m (.refused n e) (m.discard n)
  | began {m m' : Manager} (a : Accepted t)
      (stands : m.ticket? a.number = some ⟨a.number, a.id, .loaded a.stored⟩)
      (performs : m.perform (a.on.setup t) a.number a.what a.on.cancel a.on.world =
        .ok (m', a.ran.world)) : Does t m (.began a) m'
  | refused {m : Manager} {n : Nat} {id : String} {s : Session} {e : Error} (what : Call)
      (on : Occasion σ) (stands : m.ticket? n = some ⟨n, id, .loaded s⟩)
      (performs : m.perform (on.setup t) n what on.cancel on.world = .error e) :
      Does t m (.refused n e) (m.discard n)
  | handedOn {m m' : Manager} {n : Nat} {e : Event} (hands : m.handOn n = (some e, m')) :
      Does t m (.handedOn n e) m'
  | saved {m : Manager} {n : Nat} {id : String} {s : Session}
      (stands : m.ticket? n = some ⟨n, id, .running [] s⟩) : Does t m (.saved n s) (m.save n)
  | released {m : Manager} {n : Nat} {id : String}
      (stands : m.ticket? n = some ⟨n, id, .saved⟩) : Does t m (.released n) (m.release n)
  | closed {m : Manager} {n : Nat} {id : String}
      (stands : m.ticket? n = some ⟨n, id, .released⟩) : Does t m (.closed n) (m.close n)
  | created {m m' : Manager} {s : Session} (creates : m.create s = .ok m') :
      Does t m (.created s) m'
  | deleted {m m' : Manager} {id : String} (deletes : m.delete id = .ok m') :
      Does t m (.deleted id) m'

/-- How a ticket moves on by a deed of its own. -/
inductive Turn (t : Team σ) : Deed t → Option Ticket → Option Ticket → Prop where
  | claimed (n : Nat) (id : String) : Turn t (.claimed n id) none (some ⟨n, id, .claimed⟩)
  | loaded (n : Nat) (id : String) (s : Session) :
      Turn t (.loaded n s) (some ⟨n, id, .claimed⟩) (some ⟨n, id, .loaded s⟩)
  | missing (n : Nat) (id : String) (e : Error) :
      Turn t (.refused n e) (some ⟨n, id, .claimed⟩) none
  | began (a : Accepted t) :
      Turn t (.began a) (some ⟨a.number, a.id, .loaded a.stored⟩)
        (some ⟨a.number, a.id, .running a.ran.events a.ran.session⟩)
  | refused (n : Nat) (id : String) (s : Session) (e : Error) :
      Turn t (.refused n e) (some ⟨n, id, .loaded s⟩) none
  | handedOn (n : Nat) (id : String) (e : Event) (rest : List Event) (s : Session) :
      Turn t (.handedOn n e) (some ⟨n, id, .running (e :: rest) s⟩)
        (some ⟨n, id, .running rest s⟩)
  | saved (n : Nat) (id : String) (s : Session) :
      Turn t (.saved n s) (some ⟨n, id, .running [] s⟩) (some ⟨n, id, .saved⟩)
  | released (n : Nat) (id : String) :
      Turn t (.released n) (some ⟨n, id, .saved⟩) (some ⟨n, id, .released⟩)
  | closed (n : Nat) (id : String) : Turn t (.closed n) (some ⟨n, id, .released⟩) none

theorem Turn.of_claimed {n : Nat} {id : String} {k k' : Option Ticket}
    (h : Turn t (.claimed n id) k k') : k = none ∧ k' = some ⟨n, id, .claimed⟩ := by
  cases h
  exact ⟨rfl, rfl⟩

theorem Turn.of_loaded {n : Nat} {id : String} {s : Session} {k k' : Option Ticket}
    (h : Turn t (.loaded n s) k k') (stands : k = some ⟨n, id, .claimed⟩) :
    k' = some ⟨n, id, .loaded s⟩ := by
  cases h
  cases stands
  rfl

theorem Turn.of_loading {d : Deed t} {n : Nat} {id : String} {s : Session} {k : Option Ticket}
    (h : Turn t d k (some ⟨n, id, .loaded s⟩)) : d = .loaded n s ∧ k = some ⟨n, id, .claimed⟩ := by
  cases h
  exact ⟨rfl, rfl⟩

theorem Turn.of_began {a : Accepted t} {k k' : Option Ticket} (h : Turn t (.began a) k k') :
    k = some ⟨a.number, a.id, .loaded a.stored⟩ ∧
      k' = some ⟨a.number, a.id, .running a.ran.events a.ran.session⟩ := by
  cases h
  exact ⟨rfl, rfl⟩

theorem Turn.of_running {n : Nat} {id : String} {s : Session} {k k' : Option Ticket}
    (h : Turn t (.saved n s) k k') (stands : k = some ⟨n, id, .running [] s⟩) :
    k' = some ⟨n, id, .saved⟩ := by
  cases h
  cases stands
  rfl

theorem Turn.of_standing {n : Nat} {id : String} {k k' : Option Ticket}
    (h : Turn t (.released n) k k') (stands : k = some ⟨n, id, .saved⟩) :
    k' = some ⟨n, id, .released⟩ := by
  cases h
  cases stands
  rfl

theorem Turn.of_refused {n : Nat} {e : Error} {k k' : Option Ticket}
    (h : Turn t (.refused n e) k k') : k' = none := by
  cases h <;> rfl

theorem claim_eq_ok {m' : Manager} {n : Nat} {id : String} (h : m.claim id = .ok (n, m')) :
    m.isRunning id = false ∧ n = m.next ∧
      m' = { m with tickets := m.tickets ++ [⟨n, id, .claimed⟩], next := n + 1 } := by
  unfold claim at h
  split at h
  · cases h
  · rename_i free
    cases h
    exact ⟨by simpa using free, rfl, rfl⟩

theorem create_eq_ok {m' : Manager} {s : Session} (h : m.create s = .ok m') :
    ∃ store, m.store.add s = .ok store ∧ m' = { m with store } := by
  unfold create at h
  cases added : m.store.add s with
  | error e =>
    rw [added] at h
    cases h
  | ok store =>
    rw [added] at h
    cases h
    exact ⟨store, rfl, rfl⟩

theorem delete_eq_ok {m' : Manager} {id : String} (h : m.delete id = .ok m') :
    ∃ store, m.store.delete id = .ok store ∧ m' = { m with store } := by
  unfold delete at h
  cases gone : m.store.delete id with
  | error e =>
    rw [gone] at h
    cases h
  | ok store =>
    rw [gone] at h
    cases h
    exact ⟨store, rfl, rfl⟩

/-- What a deed changes: at most one ticket, and what is stored only as the deed says. -/
inductive Change (t : Team σ) (m : Manager) : Deed t → Manager → Prop where
  | claims (id : String) (free : m.isRunning id = false) :
      Change t m (.claimed m.next id)
        { m with tickets := m.tickets ++ [⟨m.next, id, .claimed⟩], next := m.next + 1 }
  | moves {d : Deed t} {n : Nat} {id : String} {stage stage' : Stage} (store : Store)
      (own : d.owner = some n) (stands : m.ticket? n = some ⟨n, id, stage⟩)
      (turn : Turn t d (some ⟨n, id, stage⟩) (some ⟨n, id, stage'⟩))
      (written : ∀ id, store.get? id = d.write id (m.store.get? id)) :
      Change t m d { m.setStage n stage' with store }
  | leaves {d : Deed t} {n : Nat} {k : Ticket} (own : d.owner = some n)
      (stands : m.ticket? n = some k) (turn : Turn t d (some k) none)
      (silent : ∀ id old, d.write id old = old) : Change t m d (m.discard n)
  | stays {d : Deed t} (store : Store) (nobody : d.owner = none)
      (written : ∀ id, store.get? id = d.write id (m.store.get? id)) :
      Change t m d { m with store }

theorem Does.change {d : Deed t} {m' : Manager} (h : Does t m d m') : Change t m d m' := by
  cases h with
  | claimed claims =>
    obtain ⟨free, rfl, rfl⟩ := claim_eq_ok claims
    exact .claims _ free
  | turnedAway claims => exact .stays m.store rfl fun _ => rfl
  | @loaded m' n id s stands found loads =>
    simp only [load, stands, found, Except.map] at loads
    cases loads
    exact .moves m.store rfl stands (.loaded n id s) fun _ => rfl
  | missing stands loads => exact .leaves rfl stands (.missing _ _ _) fun _ _ => rfl
  | began a stands performs =>
    simp only [perform, stands, a.performs, Except.map] at performs
    cases performs
    exact .moves m.store rfl stands (.began a) fun _ => rfl
  | refused what on stands performs => exact .leaves rfl stands (.refused _ _ _ _) fun _ _ => rfl
  | handedOn hands =>
    unfold handOn at hands
    split at hands
    · rename_i number id e rest s stands
      cases hands
      cases number_of_ticket? stands
      exact .moves m.store rfl stands (.handedOn _ _ _ _ _) fun _ => rfl
    · cases hands
  | @saved n id s stands =>
    simp only [save, stands]
    exact .moves _ rfl stands (.saved n id s) (m.store.get?_writeBack s)
  | released stands =>
    simp only [release, stands]
    exact .moves m.store rfl stands (.released _ _) fun _ => rfl
  | closed stands =>
    simp only [close, stands]
    exact .leaves rfl stands (.closed _ _) fun _ _ => rfl
  | created creates =>
    obtain ⟨store, added, rfl⟩ := create_eq_ok creates
    exact .stays store rfl (Store.get?_add added).2
  | deleted deletes =>
    obtain ⟨store, gone, rfl⟩ := delete_eq_ok deletes
    exact .stays store rfl (Store.get?_delete gone)

namespace Change

variable {d : Deed t} {m' : Manager}

theorem store (h : Change t m d m') (id : String) :
    m'.store.get? id = d.write id (m.store.get? id) := by
  cases h with
  | claims id free => rfl
  | moves store own stands turn written => exact written id
  | leaves own stands turn silent => exact (silent id _).symm
  | stays store nobody written => exact written id

theorem numbered (h : Change t m d m') (before : m.Numbered) : m'.Numbered := by
  cases h with
  | claims id free => exact before.append id .claimed
  | @moves d n id stage stage' store own stands turn written =>
    exact (before.setStage n stage').congr rfl rfl
  | leaves => exact before.discard _
  | stays => exact before.congr rfl rfl

theorem turn (h : Change t m d m') (before : m.Numbered) {n : Nat} (owner : d.owner = some n) :
    Turn t d (m.ticket? n) (m'.ticket? n) := by
  cases h with
  | claims id free =>
    cases owner
    have absent : m.ticket? m.next = none := before.fresh (Nat.le_refl _)
    rw [absent]
    unfold ticket? at absent ⊢
    simpa [List.find?_append, absent] using Turn.claimed (t := t) m.next id
  | @moves d n' id stage stage' store own stands turn written =>
    cases own.symm.trans owner
    have moved : ticket? { m.setStage n stage' with store } n = some ⟨n, id, stage'⟩ := by
      refine (ticket?_setStage m n stage' n).trans ?_
      rw [if_pos rfl, stands]
      rfl
    rwa [stands, moved]
  | leaves own stands turn silent =>
    cases own.symm.trans owner
    rwa [ticket?_discard, if_pos rfl, stands]
  | stays store nobody =>
    rw [nobody] at owner
    cases owner

theorem others (h : Change t m d m') {n : Nat} (other : d.owner ≠ some n) :
    m'.ticket? n = m.ticket? n := by
  cases h with
  | claims id free =>
    have later : (m.next == n) = false := by
      simpa [Deed.owner] using other
    simp [ticket?, List.find?_append, later]
  | @moves d n' id stage stage' store own stands turn written =>
    have apart : n ≠ n' := by
      rintro rfl
      exact other own
    exact (ticket?_setStage m n' stage' n).trans (if_neg apart)
  | @leaves d n' k own stands turn silent =>
    have apart : n ≠ n' := by
      rintro rfl
      exact other own
    exact (ticket?_discard m n' n).trans (if_neg apart)
  | stays => rfl

theorem next_le (h : Change t m d m') : m.next ≤ m'.next := by
  cases h with
  | claims => exact Nat.le_succ _
  | moves | leaves | stays => exact Nat.le_refl _

theorem owner_lt (h : Change t m d m') (before : m.Numbered) {n : Nat}
    (owner : d.owner = some n) : n < m'.next := by
  have known {k : Ticket} (stands : m.ticket? n = some k) : n < m.next := by
    have bound := before.below k (mem_of_ticket? stands)
    rwa [number_of_ticket? stands] at bound
  cases h with
  | claims id free =>
    cases owner
    exact Nat.lt_succ_self _
  | moves store own stands =>
    cases own.symm.trans owner
    exact known stands
  | leaves own stands =>
    cases own.symm.trans owner
    exact known stands
  | stays store nobody =>
    rw [nobody] at owner
    cases owner

end Change

/-! ## Histories -/

inductive Goes (t : Team σ) (m₀ : Manager) : List (Deed t) → Manager → Prop where
  | start : Goes t m₀ [] m₀
  | next {ds : List (Deed t)} {m m' : Manager} {d : Deed t} (before : Goes t m₀ ds m)
      (does : Does t m d m') : Goes t m₀ (ds ++ [d]) m'

theorem Goes.append {m₀ m' : Manager} {ds es : List (Deed t)} (h : Goes t m₀ ds m)
    (h' : Goes t m es m') : Goes t m₀ (ds ++ es) m' := by
  induction h' with
  | start => rwa [List.append_nil]
  | next _ does ih =>
    rw [← List.append_assoc]
    exact ih.next does

def written (id : String) (old : Option Session) (ds : List (Deed t)) : Option Session :=
  ds.foldl (fun old d => d.write id old) old

def stepsOf (n : Nat) (ds : List (Deed t)) : List (Deed t) := ds.filter (·.owner = some n)

theorem stepsOf_append (n : Nat) (ds es : List (Deed t)) :
    stepsOf n (ds ++ es) = stepsOf n ds ++ stepsOf n es := List.filter_append ds es

namespace Goes

variable {st : Store} {ds : List (Deed t)}

theorem numbered (h : Goes t { store := st } ds m) : m.Numbered := by
  induction h with
  | start => exact ⟨.nil, by simp⟩
  | next _ does ih => exact does.change.numbered ih

theorem store {m₀ : Manager} (h : Goes t m₀ ds m) (id : String) :
    m.store.get? id = written id (m₀.store.get? id) ds := by
  induction h with
  | start => rfl
  | next _ does ih =>
    rw [does.change.store id, ih, written, written, List.foldl_append]
    rfl

theorem stepsOf_next (h : Goes t { store := st } ds m) {n : Nat} (beyond : m.next ≤ n) :
    stepsOf n ds = [] := by
  induction h with
  | start => rfl
  | @next ds m m' d before does ih =>
    have earlier := ih (Nat.le_trans does.change.next_le beyond)
    rw [stepsOf_append, earlier, List.nil_append, stepsOf, List.filter_eq_nil_iff]
    intro d' among owner
    cases List.mem_singleton.mp among
    have bound := does.change.owner_lt before.numbered (of_decide_eq_true owner)
    omega

end Goes

end Manager

end Ensemble
