import Ensemble.View.Basic

/-!
# Calls and results in a list of messages

`Paired` is what models ask of the messages they get. Trimming never loses it: every result that
it keeps stands behind its call (`called_pairedFrom`), and of what follows on a call that it keeps
it drops no result (`answered_pairedFrom`). So a conversation whose calls all have results is
paired however it is trimmed (`paired_trimWith`).
-/

namespace Ensemble

/-- Before every result a message of the assistant makes its call. -/
def Called (messages : List Message) : Prop :=
  ∀ before m after, messages = before ++ m :: after → m.role = .tool →
    ∃ caller ∈ before, caller.role = .assistant ∧ ∃ c ∈ caller.calls, m.toolCallId = some c.id

/-- Behind every message of the assistant there are results of all its calls. -/
def Answered (messages : List Message) : Prop :=
  ∀ before m after, messages = before ++ m :: after → m.role = .assistant →
    ∀ c ∈ m.calls, ∃ result ∈ after, result.role = .tool ∧ result.toolCallId = some c.id

structure Paired (messages : List Message) : Prop where
  called : Called messages
  answered : Answered messages

/-- Nobody but the assistant makes calls. -/
def Plain (messages : List Message) : Prop :=
  ∀ m ∈ messages, m.role ≠ .assistant → m.calls = []

theorem Plain.drop {messages : List Message} (plain : Plain messages) (n : Nat) :
    Plain (messages.drop n) :=
  fun m among => plain m (List.mem_of_mem_drop among)

theorem Answered.of_append (xs : List Message) {ys : List Message} (h : Answered (xs ++ ys)) :
    Answered ys := by
  intro before m after split
  exact h (xs ++ before) m after (by rw [split, List.append_assoc])

theorem Answered.drop {xs : List Message} (h : Answered xs) (n : Nat) : Answered (xs.drop n) := by
  refine Answered.of_append (xs.take n) ?_
  rwa [List.take_append_drop]

/-- A message that is not the system's stands behind all that the system says first. -/
theorem split_of_system {zone messages before after : List Message} {m : Message}
    (system : ∀ m ∈ zone, m.role = .system) (split : zone ++ messages = before ++ m :: after)
    (role : m.role ≠ .system) :
    ∃ before', before = zone ++ before' ∧ messages = before' ++ m :: after := by
  rcases List.append_eq_append_iff.mp split with ⟨before', front, back⟩ | ⟨rest, front, back⟩
  · exact ⟨before', front, back⟩
  · cases rest with
    | nil => exact ⟨[], by rw [front, List.append_nil, List.append_nil], back.symm⟩
    | cons other rest =>
      obtain ⟨rfl, -⟩ := List.cons.inj back
      exact (role (system m (by rw [front]; simp))).elim

theorem called_system_append {zone : List Message} (system : ∀ m ∈ zone, m.role = .system)
    (messages : List Message) : Called (zone ++ messages) ↔ Called messages := by
  constructor
  · intro h before m after split role
    obtain ⟨caller, among, assistant, call⟩ := h (zone ++ before) m after (by simp [split]) role
    rcases List.mem_append.mp among with inZone | among
    · rw [system caller inZone] at assistant
      cases assistant
    · exact ⟨caller, among, assistant, call⟩
  · intro h before m after split role
    obtain ⟨before', rfl, rest⟩ := split_of_system system split (by simp [role])
    obtain ⟨caller, among, found⟩ := h before' m after rest role
    exact ⟨caller, List.mem_append_right zone among, found⟩

theorem answered_system_append {zone : List Message} (system : ∀ m ∈ zone, m.role = .system)
    (messages : List Message) : Answered (zone ++ messages) ↔ Answered messages := by
  constructor
  · exact Answered.of_append zone
  · intro h before m after split role
    obtain ⟨before', -, rest⟩ := split_of_system system split (by simp [role])
    exact h before' m after rest role

theorem paired_system_append {zone : List Message} (system : ∀ m ∈ zone, m.role = .system)
    (messages : List Message) : Paired (zone ++ messages) ↔ Paired messages := by
  constructor
  · intro h
    exact ⟨(called_system_append system messages).mp h.called,
      (answered_system_append system messages).mp h.answered⟩
  · intro h
    exact ⟨(called_system_append system messages).mpr h.called,
      (answered_system_append system messages).mpr h.answered⟩

namespace View

/-! ## Zones -/

section Zones

variable {P : Message → Prop}

theorem markLast_all (mark : ∀ m, P m → P { m with checkpoint := true }) {zone : List Message}
    (h : ∀ m ∈ zone, P m) : ∀ m ∈ markLast zone, P m := by
  induction zone with
  | nil => exact h
  | cons first zone ih =>
    cases zone with
    | nil =>
      rintro m (_ | ⟨_, ⟨⟩⟩)
      exact mark first (h first (.head _))
    | cons second zone =>
      rintro m (_ | ⟨_, among⟩)
      · exact h first (.head _)
      · exact ih (fun m among => h m (.tail _ among)) m among

theorem systemZones_all (mark : ∀ m, P m → P { m with checkpoint := true })
    {invariant context summary : List Message} (h₁ : ∀ m ∈ invariant, P m)
    (h₂ : ∀ m ∈ context, P m) (h₃ : ∀ m ∈ summary, P m) :
    ∀ m ∈ systemZones invariant context summary, P m := by
  intro m among
  simp only [systemZones, List.append_assoc, List.mem_append] at among
  rcases among with among | among | among
  · exact markLast_all mark h₁ m among
  · exact markLast_all mark h₂ m among
  · split at among
    · exact markLast_all mark h₃ m among
    · exact h₃ m among

section Texts

variable {σ : Type} (system : ∀ text, P (.system text)) (here : Surroundings) (s : Session)
  (a : Agent σ) (t : Team σ)

include system

theorem invariantZone_all : ∀ m ∈ invariantZone a t, P m := by
  intro m among
  simp only [invariantZone, List.append_assoc, List.mem_append, List.mem_singleton,
    List.mem_map] at among
  rcases among with rfl | among | ⟨text, -, rfl⟩
  · exact system _
  · split at among
    · cases among
    · rw [List.mem_singleton.mp among]
      exact system _
  · exact system _

theorem contextZone_all : ∀ m ∈ contextZone here s a, P m := by
  intro m among
  simp only [contextZone, List.mem_append] at among
  rcases among with among | among
  · split at among
    · rw [List.mem_singleton.mp among]
      exact system _
    · cases among
  · split at among
    · rw [List.mem_singleton.mp among]
      exact system _
    · cases among

theorem summaryZone_all : ∀ m ∈ summaryZone s, P m := by
  intro m among
  simp only [summaryZone, Option.mem_toList, Option.map_eq_some_iff] at among
  obtain ⟨text, -, rfl⟩ := among
  exact system _

end Texts

theorem zones_all {σ : Type} (mark : ∀ m, P m → P { m with checkpoint := true })
    (system : ∀ text, P (.system text)) (here : Surroundings) (s : Session) (a : Agent σ)
    (t : Team σ) :
    ∀ m ∈ systemZones (invariantZone a t) (contextZone here s a) (summaryZone s), P m :=
  systemZones_all mark (invariantZone_all system a t) (contextZone_all system here s a)
    (summaryZone_all system s)

end Zones

theorem zones_system {σ : Type} (here : Surroundings) (s : Session) (a : Agent σ) (t : Team σ) :
    ∀ m ∈ systemZones (invariantZone a t) (contextZone here s a) (summaryZone s),
      m.role = .system :=
  zones_all (fun _ h => h) (fun _ => rfl) here s a t

/-! ## Trimming -/

theorem pairedFrom_cons (seen : List String) (m : Message) (rest : List Message) :
    pairedFrom seen (m :: rest) = m :: pairedFrom (callIds m ++ seen) rest ∧
        (m.role = .tool → ∃ id ∈ callIds m ++ seen, m.toolCallId = some id) ∨
      pairedFrom seen (m :: rest) = pairedFrom (callIds m ++ seen) rest ∧ m.role = .tool ∧
        ∀ id ∈ callIds m ++ seen, m.toolCallId ≠ some id := by
  cases role : m.role with
  | tool =>
    cases result : m.toolCallId with
    | none => simp [pairedFrom, role, result]
    | some id =>
      by_cases known : id ∈ callIds m ++ seen
      · refine .inl ⟨?_, fun _ => ⟨id, known, rfl⟩⟩
        simp only [pairedFrom, role, result]
        exact if_pos known
      · refine .inr ⟨?_, rfl, ?_⟩
        · simp only [pairedFrom, role, result]
          exact if_neg known
        · rintro other among ⟨⟩
          exact known among
  | system => simp [pairedFrom, role]
  | user => simp [pairedFrom, role]
  | assistant => simp [pairedFrom, role]

theorem callIds_eq_nil {m : Message} (h : m.calls = []) : callIds m = [] := by
  rw [callIds, h, List.map_nil]

theorem called_pairedFrom {messages : List Message} (plain : Plain messages) {seen : List String}
    {before after : List Message} {m : Message}
    (split : pairedFrom seen messages = before ++ m :: after) (role : m.role = .tool) :
    ∃ id, m.toolCallId = some id ∧
      (id ∈ seen ∨
        ∃ caller ∈ before, caller.role = .assistant ∧ ∃ c ∈ caller.calls, id = c.id) := by
  induction messages generalizing seen before with
  | nil => simp [pairedFrom] at split
  | cons first messages ih =>
    have later : Plain messages := fun m among => plain m (.tail _ among)
    rcases pairedFrom_cons seen first messages with ⟨kept, known⟩ | ⟨dropped, isResult, -⟩
    · rw [kept] at split
      cases before with
      | nil =>
        obtain ⟨rfl, -⟩ := List.cons.inj split
        obtain ⟨id, among, result⟩ := known role
        rw [callIds_eq_nil (plain first (.head _) (by simp [role])), List.nil_append] at among
        exact ⟨id, result, .inl among⟩
      | cons other before =>
        obtain ⟨rfl, rest⟩ := List.cons.inj split
        obtain ⟨id, result, among | ⟨caller, among, found⟩⟩ := ih later rest
        · rcases List.mem_append.mp among with here | among
          · obtain ⟨c, hc, rfl⟩ := List.mem_map.mp here
            have assistant : first.role = .assistant := Decidable.byContradiction fun other => by
              rw [plain first (.head _) other] at hc
              cases hc
            exact ⟨c.id, result, .inr ⟨first, .head _, assistant, c, hc, rfl⟩⟩
          · exact ⟨id, result, .inl among⟩
        · exact ⟨id, result, .inr ⟨caller, .tail _ among, found⟩⟩
    · rw [dropped, callIds_eq_nil (plain first (.head _) (by simp [isResult])),
        List.nil_append] at split
      exact ih later split

theorem mem_pairedFrom {messages : List Message} {seen : List String} {m : Message} {id : String}
    (among : m ∈ messages) (result : m.toolCallId = some id) (known : id ∈ seen) :
    m ∈ pairedFrom seen messages := by
  induction messages generalizing seen with
  | nil => cases among
  | cons first messages ih =>
    have still : id ∈ callIds first ++ seen := List.mem_append_right _ known
    rcases pairedFrom_cons seen first messages with ⟨kept, -⟩ | ⟨dropped, -, unknown⟩
    · rw [kept]
      rcases List.mem_cons.mp among with rfl | among
      · exact .head _
      · exact .tail _ (ih among still)
    · rw [dropped]
      rcases List.mem_cons.mp among with rfl | among
      · exact (unknown id still result).elim
      · exact ih among still

theorem answered_pairedFrom {messages : List Message} (h : Answered messages)
    (seen : List String) : Answered (pairedFrom seen messages) := by
  induction messages generalizing seen with
  | nil =>
    intro before m after split
    simp [pairedFrom] at split
  | cons first messages ih =>
    have later : Answered messages := Answered.of_append [first] h
    rcases pairedFrom_cons seen first messages with ⟨kept, -⟩ | ⟨dropped, -⟩
    · intro before m after split role c hc
      rw [kept] at split
      cases before with
      | nil =>
        obtain ⟨rfl, rfl⟩ := List.cons.inj split
        obtain ⟨result, among, isResult, id⟩ := h [] first messages rfl role c hc
        have known : c.id ∈ callIds first ++ seen :=
          List.mem_append_left _ (List.mem_map.mpr ⟨c, hc, rfl⟩)
        exact ⟨result, mem_pairedFrom among id known, isResult, id⟩
      | cons other before =>
        exact ih later _ before m after (List.cons.inj split).2 role c hc
    · rw [dropped]
      exact ih later _

theorem called_pairedFrom_nil {messages : List Message} (plain : Plain messages) :
    Called (pairedFrom [] messages) := by
  intro before m after split role
  obtain ⟨id, result, seen | ⟨caller, among, assistant, c, hc, rfl⟩⟩ :=
    called_pairedFrom plain split role
  · cases seen
  · exact ⟨caller, among, assistant, c, hc, result⟩

theorem called_trimWith (policy : TrimPolicy) (max : Nat) {messages : List Message}
    (plain : Plain messages) : Called (trimWith policy max messages) := by
  unfold trimWith
  split
  · simp [Called]
  · exact called_pairedFrom_nil (plain.drop _)

/-- Trimming pairs what it keeps, whatever it does about stranded results. -/
theorem paired_trimWith (policy : TrimPolicy) (max : Nat) {messages : List Message}
    (plain : Plain messages) (h : Answered messages) :
    Paired (trimWith policy max messages) := by
  refine ⟨called_trimWith policy max plain, ?_⟩
  unfold trimWith
  split
  · simp [Answered]
  · exact answered_pairedFrom (h.drop _) []

end View

end Ensemble
