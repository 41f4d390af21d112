import Ensemble.Proofs.Manager.Ways

/-!
# What a session comes to

Nobody but its holder works with a session, so a copy stays what the accepted calls have made of the
session up to now (`Manager.Course`), and every driver begins where the one before it ended. This
holds from any point on where nobody holds the session, and as long as it is not created anew
after it was deleted: a copy of the old session may still be written back then.
-/

namespace Ensemble.Manager

variable {σ : Type} {t : Team σ} {m : Manager} {st : Store} {ds : List (Deed t)}

/-! ## The accepted calls of a session -/

def Deed.claim? : Deed t → Option Nat
  | .claimed n _ => some n
  | _ => none

def Deed.accepted? (id : String) : Deed t → Option (Accepted t)
  | .began a => if a.id = id then some a else none
  | _ => none

theorem Deed.eq_began {id : String} {d : Deed t} {a : Accepted t}
    (h : d.accepted? id = some a) : d = .began a ∧ a.id = id := by
  unfold Deed.accepted? at h
  split at h
  · split at h
    · rename_i here
      cases h
      exact ⟨rfl, here⟩
    · cases h
  · cases h

def claimsIn (ds : List (Deed t)) : List Nat := ds.filterMap Deed.claim?

/-- The accepted calls on a session, in the order in which their drivers began. -/
def acceptedIn (id : String) (ds : List (Deed t)) : List (Accepted t) :=
  ds.filterMap (Deed.accepted? id)

theorem acceptedIn_append (id : String) (ds es : List (Deed t)) :
    acceptedIn id (ds ++ es) = acceptedIn id ds ++ acceptedIn id es := List.filterMap_append

theorem Goes.claims (h : Goes t { store := st } ds m) :
    (claimsIn ds).Pairwise (· < ·) ∧ ∀ n ∈ claimsIn ds, n < m.next := by
  induction h with
  | start => exact ⟨.nil, by simp [claimsIn]⟩
  | @next ds m m' d before does ih =>
    obtain ⟨sorted, below⟩ := ih
    have appended : claimsIn (ds ++ [d]) = claimsIn ds ++ claimsIn [d] := List.filterMap_append
    rw [appended]
    cases claim : d.claim? with
    | none =>
      have nothing : claimsIn [d] = [] := by simp [claimsIn, claim]
      rw [nothing, List.append_nil]
      exact ⟨sorted, fun n among => Nat.lt_of_lt_of_le (below n among) does.change.next_le⟩
    | some n =>
      have one : claimsIn [d] = [n] := by simp [claimsIn, claim]
      rw [one]
      cases does with
      | claimed claims =>
        cases claim
        obtain ⟨-, rfl, rfl⟩ := claim_eq_ok claims
        refine ⟨?_, ?_⟩
        · rw [List.pairwise_append]
          exact ⟨sorted, List.pairwise_singleton _ _, by simpa using below⟩
        · intro x among
          rcases List.mem_append.mp among with old | new
          · exact Nat.lt_succ_of_lt (below x old)
          · cases List.mem_singleton.mp new
            exact Nat.lt_succ_self _
      | _ => cases claim

def early (k : Ticket) : Bool :=
  match k.stage with
  | .claimed | .loaded _ => true
  | _ => false

theorem holds_of_early {k : Ticket} (h : early k = true) : k.holds = true := by
  apply holds_of_stage
  intro released
  simp [early, released] at h

theorem Turn.early {d : Deed t} {k : Option Ticket} {k' : Ticket} (h : Turn t d k (some k'))
    (still : Manager.early k' = true) :
    (∃ n, d = .claimed n k'.id) ∨
      ∃ before, k = some before ∧ before.id = k'.id ∧ Manager.early before = true := by
  cases h with
  | claimed n id => exact .inl ⟨n, rfl⟩
  | loaded => exact .inr ⟨_, rfl, rfl, rfl⟩
  | began | handedOn | saved | released => cases still

/-- The accepted calls come in the order of their claims, and those whose driver has not begun
come later. -/
structure Ordered (id : String) (ds : List (Deed t)) (m : Manager) : Prop where
  sorted : ((acceptedIn id ds).map (·.number)).Pairwise (· < ·)
  ahead : ∀ n k, m.ticket? n = some k → k.id = id → early k = true →
    ∀ a ∈ acceptedIn id ds, a.number < n

theorem Goes.accepted_lt (h : Goes t { store := st } ds m) {id : String} {a : Accepted t}
    (among : a ∈ acceptedIn id ds) : a.number < m.next := by
  by_contra beyond
  obtain ⟨d, deed, accepted⟩ := List.mem_filterMap.mp among
  obtain ⟨rfl, -⟩ := Deed.eq_began accepted
  have step : .began a ∈ stepsOf a.number ds :=
    List.mem_filter.mpr ⟨deed, by simp [Deed.owner]⟩
  rw [h.stepsOf_next (Nat.le_of_not_lt beyond)] at step
  cases step

theorem Goes.ordered (h : Goes t { store := st } ds m) (id : String) : Ordered id ds m := by
  induction h with
  | start => exact ⟨.nil, by simp [acceptedIn]⟩
  | @next ds m m' d before does ih =>
    cases accepted : d.accepted? id with
    | none =>
      have same : acceptedIn id (ds ++ [d]) = acceptedIn id ds := by
        simp [acceptedIn, accepted]
      refine ⟨by rw [same]; exact ih.sorted, ?_⟩
      rw [same]
      intro n k found here still a among
      -- A call that has not begun was claimed just now, or had not begun before either.
      by_cases own : d.owner = some n
      · have turn := does.change.turn before.numbered own
        rw [found] at turn
        rcases turn.early still with ⟨number, rfl⟩ | ⟨k₀, stood, same, earlier⟩
        · cases does with
          | claimed claims =>
            cases own
            rw [(claim_eq_ok claims).2.1]
            exact before.accepted_lt among
        · exact ih.ahead n k₀ stood (same.trans here) earlier a among
      · rw [does.change.others own] at found
        exact ih.ahead n k found here still a among
    | some a =>
      have added : acceptedIn id (ds ++ [d]) = acceptedIn id ds ++ [a] := by
        simp [acceptedIn, accepted]
      obtain ⟨rfl, here⟩ := Deed.eq_began accepted
      obtain ⟨stood, stands⟩ := (does.change.turn before.numbered rfl).of_began
      have latest := ih.ahead a.number _ stood here rfl
      constructor
      · rw [added, List.map_append, List.pairwise_append]
        refine ⟨ih.sorted, List.pairwise_singleton _ _, ?_⟩
        simpa using latest
      · intro n k found there still
        by_cases own : n = a.number
        · subst own
          cases stands.symm.trans found
          cases still
        · -- The session was held by the call that began.
          have apart : (Deed.began a).owner ≠ some n := by simpa [Deed.owner] using Ne.symm own
          rw [does.change.others apart] at found
          have held : m.Holds a.number id := ⟨_, stood, here, rfl⟩
          exact absurd (before.alone ⟨k, found, there, holds_of_early still⟩ held) own

/-! ## What a session comes to -/

theorem perform_id {what : Call} {setup : Setup σ} {stored : Session} {c : Cancellation} {world : σ}
    {r : Run σ} (h : what.perform setup stored c world = .ok r) : r.session.id = stored.id := by
  cases what with
  | run message =>
    obtain ⟨-, -, rfl⟩ := Setup.run_eq_ok h
    have grown := Run.drive_continues setup (Run.quiet_followUp setup) none
      (r := { session := (Call.run message).prepare setup stored
              agent := setup.firstAgent ((Call.run message).prepare setup stored)
              cancel := c, world }) rfl rfl
    cases message <;> exact grown.id_eq
  | resume answer =>
    obtain ⟨pending, -, rfl⟩ := Setup.resume_eq_ok h
    have grown := Run.drive_continues setup (Run.quiet_followUp setup) (some (pending, answer))
      (r := { session := { stored with pending := none }
              agent := stored.activeAgent.getD pending.agent, cancel := c, world })
      (s := stored) rfl rfl
    exact grown.id_eq

/-- The copy of its session that a ticket works with. -/
def copy? (k : Ticket) : Option Session :=
  match k.stage with
  | .loaded s | .running _ s => some s
  | _ => none

theorem holds_of_copy {k : Ticket} {s : Session} (h : copy? k = some s) : k.holds = true := by
  apply holds_of_stage
  intro released
  simp [copy?, released] at h

/-- The driver of the call has begun, and what it came to is not written back yet. -/
def drives (k : Ticket) : Bool :=
  match k.stage with
  | .running .. => true
  | _ => false

theorem holds_of_drives {k : Ticket} (h : drives k = true) : k.holds = true := by
  apply holds_of_stage
  intro released
  simp [drives, released] at h

theorem Turn.copy {d : Deed t} {k : Option Ticket} {k' : Ticket} (h : Turn t d k (some k'))
    {s : Session} (copied : copy? k' = some s) :
    (∃ n, d = .loaded n s ∧ k = some ⟨n, k'.id, .claimed⟩) ∨
      (∃ a, d = .began a ∧ a.id = k'.id ∧ a.ran.session = s ∧
        k = some ⟨a.number, a.id, .loaded a.stored⟩) ∨
      ∃ before, k = some before ∧ before.id = k'.id ∧ copy? before = some s := by
  cases h with
  | loaded n id s' =>
    cases copied
    exact .inl ⟨n, rfl, rfl⟩
  | began a =>
    cases copied
    exact .inr (.inl ⟨a, rfl, rfl, rfl, rfl⟩)
  | handedOn n id e rest s' => exact .inr (.inr ⟨_, rfl, rfl, copied⟩)
  | claimed | saved | released => cases copied

theorem Turn.drives {d : Deed t} {k : Ticket} {k' : Option Ticket} (h : Turn t d (some k) k')
    (driving : Manager.drives k = true) :
    (∃ after, k' = some after ∧ after.id = k.id ∧ Manager.drives after = true) ∨
      ∃ n s, d = .saved n s ∧ copy? k = some s := by
  cases h with
  | handedOn => exact .inl ⟨_, rfl, rfl, rfl⟩
  | saved n id s => exact .inr ⟨n, s, rfl, rfl⟩
  | loaded | missing | began | refused | released | closed => cases driving

theorem Turn.of_saved {n : Nat} {s : Session} {k k' : Option Ticket}
    (h : Turn t (.saved n s) k k') : ∃ before, k = some before ∧ copy? before = some s := by
  cases h
  exact ⟨_, rfl, rfl⟩

theorem Does.loads {n : Nat} {s : Session} {m' : Manager} (h : Does t m (.loaded n s) m') :
    ∃ id, m.ticket? n = some ⟨n, id, .claimed⟩ ∧ m.store.get? id = some s := by
  cases h with
  | loaded stands found => exact ⟨_, stands, Store.get_eq_ok found⟩

theorem Does.present {id : String} {m' : Manager} (h : Does t m (.deleted id) m') :
    (m.store.get? id).isSome = true := by
  cases h with
  | deleted deletes =>
    obtain ⟨store, gone, -⟩ := delete_eq_ok deletes
    exact Store.present_of_delete gone

theorem Goes.copy_id (h : Goes t { store := st } ds m) {n : Nat} {k : Ticket} {s : Session}
    (found : m.ticket? n = some k) (copied : copy? k = some s) : s.id = k.id := by
  induction h generalizing n k s with
  | start => cases found
  | @next ds m m' d before does ih =>
    by_cases own : d.owner = some n
    · have turn := does.change.turn before.numbered own
      rw [found] at turn
      rcases turn.copy copied with ⟨x, rfl, stood⟩ | ⟨a, rfl, here, rfl, stood⟩ |
        ⟨k₀, stood, same, copied₀⟩
      · obtain ⟨id, stands, stored⟩ := does.loads
        cases own
        rw [stands] at stood
        cases stood
        exact Store.id_of_get? stored
      · rw [perform_id a.performs, ← here]
        exact ih stood rfl
      · rw [← same]
        exact ih stood copied₀
    · rw [does.change.others own] at found
      exact ih found copied

/-- Every call begins where the one before it ended. -/
def Chained : Option Session → List (Accepted t) → Prop
  | _, [] => True
  | start, a :: rest => start = some a.stored ∧ Chained (some a.ran.session) rest

def latest (origin : Option Session) (calls : List (Accepted t)) : Option Session :=
  (calls.getLast?.map fun a => a.ran.session).or origin

theorem latest_concat (origin : Option Session) (calls : List (Accepted t)) (a : Accepted t) :
    latest origin (calls ++ [a]) = some a.ran.session := by
  simp [latest]

theorem latest_cons (origin : Option Session) (a : Accepted t) (rest : List (Accepted t)) :
    latest origin (a :: rest) = latest (some a.ran.session) rest := by
  cases rest with
  | nil => rfl
  | cons b rest => simp [latest, List.getLast?_eq_some_getLast]

theorem Chained.concat {origin : Option Session} {calls : List (Accepted t)} {a : Accepted t}
    (h : Chained origin calls) (last : latest origin calls = some a.stored) :
    Chained origin (calls ++ [a]) := by
  induction calls generalizing origin with
  | nil => exact ⟨last, trivial⟩
  | cons b rest ih =>
    rw [latest_cons] at last
    exact ⟨h.1, ih h.2 last⟩

theorem Chained.eq_nil {calls : List (Accepted t)} (h : Chained none calls) : calls = [] := by
  cases calls with
  | nil => rfl
  | cons a rest => cases h.1

def LoadedAt (st : Store) (ds : List (Deed t)) (n : Nat) (id : String) (s : Session) : Prop :=
  ∃ before after, ds = before ++ .loaded n s :: after ∧ written id (st.get? id) before = some s

theorem LoadedAt.append {n : Nat} {id : String} {s : Session} (h : LoadedAt st ds n id s)
    (es : List (Deed t)) : LoadedAt st (ds ++ es) n id s := by
  obtain ⟨before, after, rfl, stored⟩ := h
  exact ⟨before, after ++ es, by simp, stored⟩

theorem Goes.loadedAt (h : Goes t { store := st } ds m) {n : Nat} {id : String} {s : Session}
    (found : m.ticket? n = some ⟨n, id, .loaded s⟩) : LoadedAt st ds n id s := by
  induction h generalizing n id s with
  | start => cases found
  | @next ds m m' d before does ih =>
    by_cases own : d.owner = some n
    · have turn := does.change.turn before.numbered own
      rw [found] at turn
      obtain ⟨rfl, stood⟩ := turn.of_loading
      obtain ⟨id', stands, stored⟩ := does.loads
      cases stands.symm.trans stood
      rw [before.store] at stored
      exact ⟨ds, [], rfl, stored⟩
    · rw [does.change.others own] at found
      exact (ih found).append [d]

/-- Every driver begins from what was stored when its call loaded the session. -/
theorem Goes.accepted_loadedAt (h : Goes t { store := st } ds m) {id : String} {a : Accepted t}
    (among : a ∈ acceptedIn id ds) : LoadedAt st ds a.number id a.stored := by
  induction h with
  | start => cases among
  | @next ds m m' d before does ih =>
    rw [acceptedIn_append] at among
    rcases List.mem_append.mp among with old | new
    · exact (ih old).append [d]
    · obtain ⟨d', last, accepted⟩ := List.mem_filterMap.mp new
      cases List.mem_singleton.mp last
      obtain ⟨rfl, here⟩ := Deed.eq_began accepted
      obtain ⟨stood, -⟩ := (does.change.turn before.numbered rfl).of_began
      rw [here] at stood
      exact (before.loadedAt stood).append _

def Accepted.replay (a : Accepted t) (s : Session) : Session :=
  match a.what.perform (a.on.setup t) s a.on.cancel a.on.world with
  | .ok r => r.session
  | .error _ => s

def inSequence (s : Session) (calls : List (Accepted t)) : Session :=
  calls.foldl (fun s a => a.replay s) s

theorem Chained.latest_eq {origin : Session} {calls : List (Accepted t)}
    (h : Chained (some origin) calls) :
    latest (some origin) calls = some (inSequence origin calls) := by
  induction calls generalizing origin with
  | nil => rfl
  | cons a rest ih =>
    obtain ⟨start, later⟩ := h
    cases start
    have replayed : a.replay a.stored = a.ran.session := by
      simp [Accepted.replay, a.performs]
    rw [latest_cons, ih later, inSequence, inSequence, List.foldl_cons, replayed]

def Deed.begins? (id : String) : Deed t → Option Session
  | .created s => if s.id = id then some s else none
  | _ => none

theorem Deed.eq_created {id : String} {d : Deed t} {s : Session} (h : d.begins? id = some s) :
    d = .created s ∧ s.id = id := by
  unfold Deed.begins? at h
  split at h
  · split at h
    · rename_i here
      cases h
      exact ⟨rfl, here⟩
    · cases h
  · cases h

/-- The sessions that began under `id`, with the one that was there before. -/
def beginnings (id : String) (old : Option Session) (ds : List (Deed t)) : List Session :=
  old.toList ++ ds.filterMap (Deed.begins? id)

/-- The state of a session that began at most once. -/
structure Course (id : String) (origin : Option Session) (ds : List (Deed t)) (m : Manager) :
    Prop where
  chained : Chained origin (acceptedIn id ds)
  copies : ∀ n k s, m.ticket? n = some k → k.id = id → copy? k = some s →
    latest origin (acceptedIn id ds) = some s
  stored : .deleted id ∉ ds → (∀ n k, m.ticket? n = some k → k.id = id → drives k = false) →
    m.store.get? id = latest origin (acceptedIn id ds)
  present : .deleted id ∉ ds → (m.store.get? id).isSome = origin.isSome
  gone : .deleted id ∈ ds → m.store.get? id = none
  begun : origin = none → .deleted id ∉ ds

namespace Course

variable {id : String} {origin : Option Session} {past : List (Deed t)} {d : Deed t} {m' : Manager}

/-- A copy is what the session has come to, also when it is loaded just now. -/
theorem copies_step (h : Course id origin ds m) (before : Goes t { store := st } past m)
    (does : Does t m d m') (accepted : d.accepted? id = none) {n : Nat} {k : Ticket} {s : Session}
    (found : m'.ticket? n = some k) (here : k.id = id) (copied : copy? k = some s) :
    latest origin (acceptedIn id ds) = some s := by
  by_cases own : d.owner = some n
  · have turn := does.change.turn before.numbered own
    rw [found] at turn
    rcases turn.copy copied with ⟨x, rfl, stood⟩ | ⟨a, rfl, there, -, -⟩ |
      ⟨k₀, stood, same, copied₀⟩
    · obtain ⟨id', stands, stored⟩ := does.loads
      cases own
      cases stands.symm.trans stood
      rw [here] at stored
      have whole : .deleted id ∉ ds := by
        intro deleted
        rw [h.gone deleted] at stored
        cases stored
      -- Only this call holds the session, and its driver has not begun.
      have idle : ∀ n' k', m.ticket? n' = some k' → k'.id = id → drives k' = false := by
        intro n' k' found' here'
        cases driving : drives k' with
        | false => rfl
        | true =>
          have same := before.alone ⟨k', found', here', holds_of_drives driving⟩
            ⟨_, stands, here, rfl⟩
          subst same
          cases stands.symm.trans found'
          cases driving
      rw [← h.stored whole idle, stored]
    · simp [Deed.accepted?, there.trans here] at accepted
    · exact h.copies _ _ _ stood (same.trans here) copied₀
  · rw [does.change.others own] at found
    exact h.copies _ _ _ found here copied

theorem deleted_mem_concat (kept : d ≠ .deleted id) :
    .deleted id ∈ ds ++ [d] ↔ .deleted id ∈ ds := by
  simp [Ne.symm kept]

/-- Only a deletion ends what the store has under `id`. -/
theorem lasts (h : Course id origin ds m) (kept : d ≠ .deleted id)
    (stands : (m'.store.get? id).isSome = (m.store.get? id).isSome) :
    (.deleted id ∉ ds ++ [d] → (m'.store.get? id).isSome = origin.isSome) ∧
      (.deleted id ∈ ds ++ [d] → m'.store.get? id = none) ∧
      (origin = none → .deleted id ∉ ds ++ [d]) := by
  rw [deleted_mem_concat kept, stands]
  refine ⟨h.present, ?_, h.begun⟩
  intro deleted
  rw [h.gone deleted] at stands
  simpa using stands

theorem frame (h : Course id origin ds m) (before : Goes t { store := st } past m)
    (does : Does t m d m') (accepted : d.accepted? id = none) (kept : d ≠ .deleted id)
    (store : m'.store.get? id = m.store.get? id)
    (drives : ∀ n k, m.ticket? n = some k → k.id = id → drives k = true →
      ∃ k', m'.ticket? n = some k' ∧ k'.id = id ∧ Manager.drives k' = true) :
    Course id origin (ds ++ [d]) m' := by
  have same : acceptedIn id (ds ++ [d]) = acceptedIn id ds := by
    simp [acceptedIn, accepted]
  obtain ⟨present, gone, begun⟩ := h.lasts kept (congrArg Option.isSome store)
  refine { present, gone, begun, chained := ?chained, copies := ?copies
           stored := ?stored }
  case chained =>
    rw [same]
    exact h.chained
  case copies =>
    rw [same]
    intro n k s found here copied
    exact h.copies_step before does accepted found here copied
  case stored =>
    rw [same, deleted_mem_concat kept, store]
    intro whole idle
    refine h.stored whole fun n k found here => ?_
    cases driving : Manager.drives k with
    | false => rfl
    | true =>
      obtain ⟨k', found', here', driving'⟩ := drives n k found here driving
      rw [idle n k' found' here'] at driving'
      cases driving'

/-- The driver that begins has the session to itself. -/
theorem began (h : Course id origin ds m) {a : Accepted t} (here : a.id = id)
    (before : Goes t { store := st } past m) (does : Does t m (.began a) m') :
    Course id origin (ds ++ [.began a]) m' := by
  obtain ⟨stood, stands⟩ := (does.change.turn before.numbered rfl).of_began
  have held : m.Holds a.number id := ⟨_, stood, here, rfl⟩
  have added : acceptedIn id (ds ++ [.began a]) = acceptedIn id ds ++ [a] := by
    simp [acceptedIn, Deed.accepted?, here]
  have store : m'.store.get? id = m.store.get? id := does.change.store id
  obtain ⟨present, gone, begun⟩ := h.lasts (d := .began a) nofun (congrArg Option.isSome store)
  refine { present, gone, begun, chained := ?chained, copies := ?copies
           stored := ?stored }
  case chained =>
    rw [added]
    exact h.chained.concat (h.copies _ _ _ stood here rfl)
  case copies =>
    intro n k s found there copied
    rw [added, latest_concat]
    by_cases own : n = a.number
    · subst own
      cases stands.symm.trans found
      exact copied
    · have apart : (Deed.began a).owner ≠ some n := by simpa [Deed.owner] using Ne.symm own
      rw [does.change.others apart] at found
      exact absurd (before.alone ⟨k, found, there, holds_of_copy copied⟩ held) own
  case stored =>
    intro whole idle
    have driving := idle _ _ stands here
    cases driving

/-- What is written back is what the session has come to. -/
theorem saved (h : Course id origin ds m) {n : Nat} {k : Ticket} {s : Session}
    (found : m.ticket? n = some k) (here : k.id = id) (copied : copy? k = some s) (same : s.id = id)
    (before : Goes t { store := st } past m) (does : Does t m (.saved n s) m') :
    Course id origin (ds ++ [.saved n s]) m' := by
  have last := h.copies n k s found here copied
  have accepted : acceptedIn id (ds ++ [.saved n s]) = acceptedIn id ds := by
    simp [acceptedIn, Deed.accepted?]
  have kept : Deed.saved (t := t) n s ≠ .deleted id := nofun
  have store : m'.store.get? id = (m.store.get? id).map fun _ => s := by
    refine (does.change.store id).trans ?_
    simp [Deed.write, same]
  have begins : origin.isSome = true := by
    cases origin with
    | some origin => rfl
    | none =>
      rw [h.chained.eq_nil] at last
      cases last
  obtain ⟨present, gone, begun⟩ := h.lasts kept (by rw [store, Option.isSome_map])
  refine { present, gone, begun, chained := ?chained, copies := ?copies
           stored := ?stored }
  case chained =>
    rw [accepted]
    exact h.chained
  case copies =>
    rw [accepted]
    intro n' k' s' found' here' copied'
    exact h.copies_step before does rfl found' here' copied'
  case stored =>
    rw [accepted, deleted_mem_concat kept, store, last]
    intro whole idle
    have stored := h.present whole
    rw [begins] at stored
    obtain ⟨old, stored⟩ := Option.isSome_iff_exists.mp stored
    rw [stored]
    rfl

theorem deleted (h : Course id origin ds m) (does : Does t m (.deleted id) m') :
    Course id origin (ds ++ [.deleted id]) m' := by
  have accepted : acceptedIn id (ds ++ [.deleted id]) = acceptedIn id ds := by
    simp [acceptedIn, Deed.accepted?]
  have deletes : .deleted id ∈ ds ++ [.deleted id] := by simp
  have store : m'.store.get? id = none := by
    refine (does.change.store id).trans ?_
    simp [Deed.write]
  have begins : origin ≠ none := by
    rintro rfl
    have absent := h.present (h.begun rfl)
    rw [does.present] at absent
    cases absent
  constructor
  case chained =>
    rw [accepted]
    exact h.chained
  case copies =>
    rw [accepted]
    intro n k s found
    rw [does.change.others (by simp [Deed.owner])] at found
    exact h.copies n k s found
  case stored =>
    exact fun whole => absurd deletes whole
  case present =>
    exact fun whole => absurd deletes whole
  case gone =>
    exact fun _ => store
  case begun =>
    exact fun none => absurd none begins

theorem created (h : Course id none ds m) {s : Session} (here : s.id = id)
    (does : Does t m (.created s) m') : Course id (some s) (ds ++ [.created s]) m' := by
  have nothing := h.chained.eq_nil
  have accepted : acceptedIn id (ds ++ [.created s]) = [] := by
    have same : acceptedIn id (ds ++ [.created s]) = acceptedIn id ds := by
      simp [acceptedIn, Deed.accepted?]
    rw [same, nothing]
  have whole : .deleted id ∉ ds ++ [.created s] := by simpa using h.begun rfl
  have store : m'.store.get? id = some s := by
    refine (does.change.store id).trans ?_
    simp [Deed.write, here]
  constructor
  case chained =>
    rw [accepted]
    exact trivial
  case copies =>
    intro n k s' found there copied
    rw [does.change.others (by simp [Deed.owner])] at found
    have last := h.copies n k s' found there copied
    rw [nothing] at last
    cases last
  case stored =>
    rw [accepted, store]
    exact fun _ _ => rfl
  case present =>
    rw [store]
    exact fun _ => rfl
  case gone =>
    exact fun deleted => absurd deleted whole
  case begun =>
    exact fun none => absurd none (Option.some_ne_none s)

end Course

/-- From a point on where nobody holds the session. -/
theorem Goes.course {past : List (Deed t)} {m₁ : Manager} (reached : Goes t { store := st } past m₁)
    (h : Goes t m₁ ds m) {id : String} (free : ∀ n, ¬ m₁.Holds n id) {origin : Option Session}
    (once : beginnings id (m₁.store.get? id) ds = origin.toList) : Course id origin ds m := by
  induction h generalizing origin with
  | start =>
    have same : m₁.store.get? id = origin := by
      cases begun : m₁.store.get? id <;> cases origin <;> simp_all [beginnings]
    refine ⟨trivial, ?_, fun _ _ => same, fun _ => congrArg Option.isSome same, ?_, ?_⟩
    · intro n k s found here copied
      exact absurd ⟨k, found, here, holds_of_copy copied⟩ (free n)
    · simp
    · simp
  | @next ds m m' d earlier does ih =>
    have before := reached.append earlier
    have begins : beginnings id (m₁.store.get? id) (ds ++ [d]) =
        beginnings id (m₁.store.get? id) ds ++ (d.begins? id).toList := by
      cases begun : d.begins? id <;> simp [beginnings, begun]
    rw [begins] at once
    -- A deed begins the session, begins a driver on it, deletes it, writes it back, or leaves it.
    cases begun : d.begins? id with
    | some s =>
      obtain ⟨rfl, here⟩ := Deed.eq_created begun
      rw [begun, Option.toList_some] at once
      cases origin with
      | none => simp at once
      | some origin =>
        have once : beginnings id (m₁.store.get? id) ds ++ [s] = [] ++ [origin] := once
        obtain ⟨first, new⟩ := List.append_inj' once rfl
        cases new
        have absent : Course id none ds m := ih first
        exact absent.created here does
    | none =>
      rw [begun, Option.toList_none, List.append_nil] at once
      have h := ih once
      cases accepted : d.accepted? id with
      | some a =>
        obtain ⟨rfl, here⟩ := Deed.eq_began accepted
        exact h.began here before does
      | none =>
        by_cases deletes : d = .deleted id
        · subst deletes
          exact h.deleted does
        by_cases saves : ∃ n s, d = .saved n s ∧ s.id = id
        · obtain ⟨n, s, rfl, same⟩ := saves
          obtain ⟨k, found, copied⟩ := (does.change.turn before.numbered rfl).of_saved
          have here : k.id = id := (before.copy_id found copied).symm.trans same
          exact h.saved found here copied same before does
        refine h.frame before does accepted deletes ?_ ?_
        · rw [does.change.store id]
          cases d with
          | saved n s => exact if_neg fun same => saves ⟨n, s, rfl, same⟩
          | created s =>
            by_cases here : s.id = id
            · simp [Deed.begins?, here] at begun
            · exact if_neg here
          | deleted id' =>
            refine if_neg ?_
            rintro rfl
            exact deletes rfl
          | _ => rfl
        · intro n k found here driving
          by_cases own : d.owner = some n
          · have turn := does.change.turn before.numbered own
            rw [found] at turn
            rcases turn.drives driving with ⟨k', found', same, driving'⟩ | ⟨x, s, rfl, copied⟩
            · exact ⟨k', found', same.trans here, driving'⟩
            · exact absurd ⟨x, s, rfl, (before.copy_id found copied).trans here⟩ saves
          · exact ⟨k, (does.change.others own).trans found, here, driving⟩

end Ensemble.Manager
