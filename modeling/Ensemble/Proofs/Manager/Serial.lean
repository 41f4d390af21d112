import Ensemble.Proofs.Manager.Course

/-!
# One driver at a time

The library's functions for whole calls are deeds like others, so what holds of histories holds of
them. `Manager.Serial` says what a history comes to: each call goes its way alone with its session,
and the sessions come to what the accepted calls make of them one after the other.
-/

namespace Ensemble.Manager

variable {σ : Type} {t : Team σ} {m : Manager} {st : Store} {ds : List (Deed t)}

/-! ## Whole calls -/

/-- What comes of a call, as deeds. -/
inductive Called (t : Team σ) (m : Manager) (id : String) (what : Call) (on : Occasion σ) :
    List (Deed t) → Except Error Nat × Manager × σ → Prop where
  | turnedAway {e : Error} (does : Does t m (.turnedAway id e) m) :
      Called t m id what on [.turnedAway id e] (.error e, m, on.world)
  | missing {e : Error} {n : Nat} {m₁ m₂ : Manager} (claims : Does t m (.claimed n id) m₁)
      (refuses : Does t m₁ (.refused n e) m₂) :
      Called t m id what on [.claimed n id, .refused n e] (.error e, m₂, on.world)
  | refused {e : Error} {n : Nat} {s : Session} {m₁ m₂ m₃ : Manager}
      (claims : Does t m (.claimed n id) m₁) (loads : Does t m₁ (.loaded n s) m₂)
      (refuses : Does t m₂ (.refused n e) m₃) :
      Called t m id what on [.claimed n id, .loaded n s, .refused n e] (.error e, m₃, on.world)
  | accepted {m₁ m₂ m₃ : Manager} (a : Accepted t) (here : a.id = id) (same : a.what = what)
      (claims : Does t m (.claimed a.number a.id) m₁)
      (loads : Does t m₁ (.loaded a.number a.stored) m₂) (begins : Does t m₂ (.began a) m₃) :
      Called t m id what on a.opening (.ok a.number, m₃, a.ran.world)

theorem called (numbered : m.Numbered) (id : String) (what : Call) (on : Occasion σ) :
    ∃ ds, Called t m id what on ds (m.call (on.setup t) id what on.cancel on.world) := by
  unfold call
  cases claimed : m.claim id with
  | error e => exact ⟨_, .turnedAway (.turnedAway claimed)⟩
  | ok both =>
    obtain ⟨n, m₁⟩ := both
    have claims : Does t m (.claimed n id) m₁ := .claimed claimed
    have stands := (claims.change.turn numbered rfl).of_claimed.2
    dsimp only
    cases found : m₁.store.get id with
    | error e =>
      have fails : m₁.load n = .error e := by
        simp only [load, stands, found, Except.map]
      rw [fails]
      exact ⟨_, .missing claims (.missing stands fails)⟩
    | ok s =>
      have succeeds : m₁.load n = .ok (m₁.setStage n (.loaded s)) := by
        simp only [load, stands, found, Except.map]
      rw [succeeds]
      have loads : Does t m₁ (.loaded n s) (m₁.setStage n (.loaded s)) :=
        .loaded stands found succeeds
      have loaded := (loads.change.turn (claims.change.numbered numbered) rfl).of_loaded stands
      dsimp only
      cases performed : what.perform (on.setup t) s on.cancel on.world with
      | error e =>
        have fails : (m₁.setStage n (.loaded s)).perform (on.setup t) n what on.cancel on.world =
            .error e := by
          simp only [perform, loaded, performed, Except.map]
        rw [fails]
        exact ⟨_, .refused claims loads (.refused what on loaded fails)⟩
      | ok r =>
        have succeeds : (m₁.setStage n (.loaded s)).perform (on.setup t) n what on.cancel on.world =
            .ok ((m₁.setStage n (.loaded s)).setStage n (.running r.events r.session),
              r.world) := by
          simp only [perform, loaded, performed, Except.map]
        rw [succeeds]
        let a : Accepted t := ⟨n, id, what, on, s, r, performed⟩
        exact ⟨_, .accepted a rfl rfl claims loads (.began a loaded succeeds)⟩

/-- A ticket that is given back leaves nothing behind, whatever was done with it. -/
theorem claim_undone {n : Nat} {id : String} {e : Error} {m₁ m₂ m₃ : Manager}
    (numbered : m.Numbered) (claims : Does t m (.claimed n id) m₁) (later : m₂.Numbered)
    (store : ∀ id', m₂.store.get? id' = m₁.store.get? id')
    (others : ∀ x, x ≠ n → m₂.ticket? x = m₁.ticket? x) (refuses : Does t m₂ (.refused n e) m₃) :
    (∀ id', m₃.store.get? id' = m.store.get? id') ∧ ∀ x, m₃.ticket? x = m.ticket? x := by
  constructor
  · intro id'
    calc m₃.store.get? id'
        = m₂.store.get? id' := refuses.change.store id'
      _ = m₁.store.get? id' := store id'
      _ = m.store.get? id' := claims.change.store id'
  · intro x
    by_cases own : x = n
    · subst own
      rw [(refuses.change.turn later rfl).of_refused,
        (claims.change.turn numbered rfl).of_claimed.1]
    · have apart : some n ≠ some x := fun same => own (Option.some.inj same).symm
      rw [refuses.change.others apart, others x own, claims.change.others apart]

theorem Called.error {id : String} {what : Call} {on : Occasion σ} {e : Error} {m' : Manager}
    {world : σ} (h : Called t m id what on ds (.error e, m', world)) (numbered : m.Numbered) :
    (∀ id', m'.store.get? id' = m.store.get? id') ∧ ∀ x, m'.ticket? x = m.ticket? x := by
  cases h with
  | turnedAway does => exact ⟨fun _ => rfl, fun _ => rfl⟩
  | missing claims refuses =>
    have later := claims.change.numbered numbered
    exact claim_undone numbered claims later (fun _ => rfl) (fun _ _ => rfl) refuses
  | refused claims loads refuses =>
    have later := loads.change.numbered (claims.change.numbered numbered)
    refine claim_undone numbered claims later loads.change.store ?_ refuses
    intro x other
    exact loads.change.others fun same => other (Option.some.inj same).symm

theorem Goes.handOn (h : Goes t { store := st } ds m) {n : Nat} {id : String}
    {events : List Event} {s : Session} (stands : m.ticket? n = some ⟨n, id, .running events s⟩) :
    let m' := events.foldl (fun m _ => (m.handOn n).2) m
    Goes t { store := st } (ds ++ events.map (.handedOn n)) m' ∧
      m'.ticket? n = some ⟨n, id, .running [] s⟩ := by
  induction events generalizing ds m with
  | nil => exact ⟨by simpa using h, stands⟩
  | cons e rest ih =>
    have hands : m.handOn n = (some e, m.setStage n (.running rest s)) := by
      simp only [Manager.handOn, stands]
    have does : Does t m (.handedOn n e) (m.setStage n (.running rest s)) := .handedOn hands
    have next := h.next does
    have moved : (m.setStage n (.running rest s)).ticket? n = some ⟨n, id, .running rest s⟩ := by
      rw [ticket?_setStage, if_pos rfl, stands]
      rfl
    have later := ih next moved
    simp only [List.foldl_cons, hands, List.map_cons]
    rwa [List.append_assoc] at later

/-- What is left of an accepted call, as deeds: its caller gets the events that wait. -/
theorem Goes.drain (h : Goes t { store := st } ds m) {n : Nat} {id : String}
    {events : List Event} {s : Session} (stands : m.ticket? n = some ⟨n, id, .running events s⟩) :
    (m.drain n).1 = events ∧
      Goes t { store := st }
        (ds ++ events.map (.handedOn n) ++ [.saved n s, .released n, .closed n]) (m.drain n).2 := by
  have waits : m.waiting n = events := by
    simp only [waiting, stands]
  obtain ⟨told, running⟩ := h.handOn stands
  have saves := told.next (.saved running)
  have saved : Manager.ticket? (Manager.save _ n) n = some ⟨n, id, .saved⟩ :=
    (Does.saved (t := t) running).change.turn told.numbered rfl |>.of_running running
  have releases := saves.next (.released saved)
  have released : Manager.ticket? (Manager.release _ n) n = some ⟨n, id, .released⟩ :=
    (Does.released (t := t) saved).change.turn saves.numbered rfl |>.of_standing saved
  have closes := releases.next (.closed released)
  simp only [Manager.drain, waits]
  refine ⟨trivial, ?_⟩
  simpa [List.append_assoc] using closes

theorem Goes.call (h : Goes t { store := st } ds m) (id : String) (what : Call) (on : Occasion σ)
    {n : Nat} {m' : Manager} {world : σ}
    (accepted : m.call (on.setup t) id what on.cancel on.world = (.ok n, m', world)) :
    ∃ a : Accepted t, a.number = n ∧ a.id = id ∧ a.what = what ∧
      m'.ticket? n = some ⟨n, id, .running a.ran.events a.ran.session⟩ ∧
      Goes t { store := st } (ds ++ a.opening) m' := by
  obtain ⟨es, called⟩ := Manager.called (t := t) h.numbered id what on
  rw [accepted] at called
  cases called with
  | @accepted m₁ m₂ m₃ a here same claims loads begins =>
    have goes := ((h.next claims).next loads).next begins
    have stands := (begins.change.turn ((h.next claims).next loads).numbered rfl).of_began.2
    rw [here] at stands
    refine ⟨a, rfl, here, same, stands, ?_⟩
    simpa [Accepted.opening, List.append_assoc] using goes

/-! ## Serial histories -/

structure Serial (t : Team σ) (st : Store) (ds : List (Deed t)) (m : Manager) : Prop where
  running : ∀ id, m.isRunning id = true ↔ ∃ n, m.Holds n id
  alone : ∀ id n n', m.Holds n id → m.Holds n' id → n = n'
  lived : ∀ n, Lived t n (stepsOf n ds) (m.ticket? n)
  claims : (claimsIn ds).Pairwise (· < ·)
  order : ∀ id, ((acceptedIn id ds).map (·.number)).Pairwise (· < ·)
  stored : ∀ id, m.store.get? id = written id (st.get? id) ds
  begun : ∀ id, ∀ a ∈ acceptedIn id ds, LoadedAt st ds a.number id a.stored
  /-- From any point on where nobody holds a session, it comes to what the accepted calls make of it
  one after the other, unless it is deleted. Then it stays deleted. `origin` is the only session
  that begins under its identifier. -/
  sequence : ∀ past m₁ later id origin, Goes t { store := st } past m₁ → Goes t m₁ later m →
    (∀ n, ¬ m₁.Holds n id) →
    beginnings id (m₁.store.get? id) later = [origin] →
      Chained (some origin) (acceptedIn id later) ∧
      (.deleted id ∈ later → m.store.get? id = none) ∧
      (.deleted id ∉ later → (∀ n, ¬ m.Holds n id) →
        m.store.get? id = some (inSequence origin (acceptedIn id later)))
  /-- A call that is refused gives its ticket back, and that is all. -/
  withdrawn : ∀ n e m', Does t m (.refused n e) m' →
    (∀ id, m'.store.get? id = m.store.get? id) ∧ m'.ticket? n = none ∧
      ∀ n', n' ≠ n → m'.ticket? n' = m.ticket? n'
  /-- Where no other steps come between, the manager is as it was before the call. -/
  refused : ∀ (id : String) (what : Call) (on : Occasion σ) (e : Error),
    (m.call (on.setup t) id what on.cancel on.world).1 = .error e →
      (∀ id', (m.call (on.setup t) id what on.cancel on.world).2.1.store.get? id' =
        m.store.get? id') ∧
      ∀ n, (m.call (on.setup t) id what on.cancel on.world).2.1.ticket? n = m.ticket? n

theorem Course.settled {id : String} {origin : Session} (h : Course id (some origin) ds m)
    (whole : .deleted id ∉ ds) (free : ∀ n, ¬ m.Holds n id) :
    m.store.get? id = some (inSequence origin (acceptedIn id ds)) := by
  rw [← h.chained.latest_eq]
  refine h.stored whole fun n k found here => ?_
  cases driving : drives k with
  | false => rfl
  | true => exact absurd ⟨k, found, here, holds_of_drives driving⟩ (free n)

end Ensemble.Manager

namespace Ensemble

variable {σ : Type}

/-- A manager runs a session one call after the other, however their steps come. What the calls come
to together (`Serial.sequence`) is stated for an identifier whose session begins once: it is there
already or is created, and after it has been deleted no other is created in its place. -/
theorem runs_serialised (t : Team σ) (st : Store) (ds : List (Manager.Deed t)) (m : Manager)
    (h : Manager.Goes t { store := st } ds m) : Manager.Serial t st ds m where
  running := Manager.isRunning_iff h.numbered
  alone _ _ _ held held' := h.alone held held'
  lived := h.lived
  claims := h.claims.1
  order id := (h.ordered id).sorted
  stored := h.store
  begun _ _ among := h.accepted_loadedAt among
  sequence past m₁ later id origin reached goes free once := by
    have course : Manager.Course id (some origin) later m := reached.course goes free once
    exact ⟨course.chained, course.gone, course.settled⟩
  withdrawn n e m' refuses := by
    refine ⟨refuses.change.store, (refuses.change.turn h.numbered rfl).of_refused, ?_⟩
    intro n' other
    exact refuses.change.others fun same => other (Option.some.inj same).symm
  refused id what on e fails := by
    obtain ⟨es, called⟩ := Manager.called (t := t) h.numbered id what on
    generalize m.call (on.setup t) id what on.cancel on.world = came at called fails ⊢
    obtain ⟨result, m', world⟩ := came
    cases fails
    exact called.error h.numbered

namespace Sample

def store : Store := { sessions := [session] }

def asking : Occasion Model.Playback := occasion [[.callStart "1" "touch", .done none none]]

end Sample

/-- While the first call runs the session, another one is turned away; the answer of the user goes
on where the first call stopped. -/
theorem runs_serialised_sample :
    ∃ (ds : List (Manager.Deed Sample.team)) (m : Manager),
      Manager.Goes Sample.team { store := Sample.store } ds m ∧
      Manager.Serial Sample.team Sample.store ds m ∧
      .turnedAway "sample" (.sessionBusy "sample") ∈ ds ∧
      m.isRunning "sample" = false ∧
      (m.store.get? "sample").map (·.items.length) = some 3 := by
  have begun : Manager.Goes Sample.team { store := Sample.store } [] { store := Sample.store } :=
    .start
  obtain ⟨a, -, -, -, stands, asked⟩ :=
    begun.call "sample" (.run (some "go")) Sample.asking rfl
  have busy := asked.next (d := .turnedAway "sample" (.sessionBusy "sample")) (.turnedAway rfl)
  have suspended := (busy.drain stands).2
  obtain ⟨b, -, -, -, stands', answered⟩ :=
    suspended.call "sample" (.resume .cancel) (Sample.occasion []) rfl
  have ended := (answered.drain stands').2
  exact ⟨_, _, ended, runs_serialised Sample.team Sample.store _ _ ended, by simp, rfl, rfl⟩

end Ensemble
