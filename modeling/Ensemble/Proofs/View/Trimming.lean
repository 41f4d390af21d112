import Mathlib.Order.Bounds.Basic
import Ensemble.Proofs.View.Pairing

/-!
# What trimming keeps

Messages are known here by their positions in the conversation. A start is whole when no result
from there on has lost its call to the messages before it; the window begins at the last whole start
that leaves at least the wanted number of messages (`expand_isGreatest`). Trimming keeps the
positions of the window, less the results whose calls are not in it (`trimWith_eq`); in a window with
a whole start these are the results that have no earlier call at all.
-/

namespace Ensemble.View

/-! ## Calls and results by position -/

/-- The message at a position makes a call with this identifier. -/
def CallsAt (messages : List Message) (i : Nat) (id : String) : Prop :=
  ∃ m ∈ messages[i]?, m.role = .assistant ∧ ∃ c ∈ m.calls, c.id = id

/-- The message at a position is a result of the call with this identifier. -/
def ResultAt (messages : List Message) (k : Nat) (id : String) : Prop :=
  ∃ m ∈ messages[k]?, m.role = .tool ∧ m.toolCallId = some id

/-- A message from one position on and before another makes the call. -/
def CalledIn (messages : List Message) (low high : Nat) (id : String) : Prop :=
  ∃ i < high, low ≤ i ∧ CallsAt messages i id

instance (messages : List Message) (i : Nat) (id : String) : Decidable (CallsAt messages i id) :=
  inferInstanceAs (Decidable (∃ m ∈ messages[i]?, m.role = .assistant ∧ ∃ c ∈ m.calls, c.id = id))

instance (messages : List Message) (k : Nat) (id : String) : Decidable (ResultAt messages k id) :=
  inferInstanceAs (Decidable (∃ m ∈ messages[k]?, m.role = .tool ∧ m.toolCallId = some id))

instance (messages : List Message) (low high : Nat) (id : String) :
    Decidable (CalledIn messages low high id) :=
  inferInstanceAs (Decidable (∃ i < high, low ≤ i ∧ CallsAt messages i id))

/-- No result from this position on is called before it, but by no message between the two. -/
def Whole (messages : List Message) (start : Nat) : Prop :=
  ∀ k id, start ≤ k → ResultAt messages k id → CalledIn messages 0 start id →
    CalledIn messages start k id

/-- What is at a position is not a result, or one whose call is made from `low` on. -/
def Stays (messages : List Message) (low k : Nat) : Prop :=
  ∀ m ∈ messages[k]?, m.role = .tool → ∃ id ∈ m.toolCallId, CalledIn messages low k id

instance (messages : List Message) (low k : Nat) : Decidable (Stays messages low k) :=
  inferInstanceAs
    (Decidable (∀ m ∈ messages[k]?, m.role = .tool → ∃ id ∈ m.toolCallId, CalledIn messages low k id))

def staying (messages : List Message) (low start : Nat) : List Nat :=
  (List.range' start (messages.length - start)).filter fun k => Stays messages low k

def messagesAt (messages : List Message) (positions : List Nat) : List Message :=
  positions.filterMap (messages[·]?)

section Positions

variable {messages : List Message} {low high start k : Nat} {id : String}

theorem CallsAt.lt {i : Nat} (h : CallsAt messages i id) : i < messages.length := by
  obtain ⟨m, here, -⟩ := h
  exact (List.getElem?_eq_some_iff.mp here).1

theorem ResultAt.lt (h : ResultAt messages k id) : k < messages.length := by
  obtain ⟨m, here, -⟩ := h
  exact (List.getElem?_eq_some_iff.mp here).1

theorem CalledIn.mono {low' high' : Nat} (h : CalledIn messages low high id) (below : low' ≤ low)
    (above : high ≤ high') : CalledIn messages low' high' id := by
  obtain ⟨i, before, reached, calls⟩ := h
  exact ⟨i, Nat.lt_of_lt_of_le before above, Nat.le_trans below reached, calls⟩

theorem calledIn_iff_or {middle : Nat} (below : low ≤ middle) (above : middle ≤ high) :
    CalledIn messages low high id ↔
      CalledIn messages low middle id ∨ CalledIn messages middle high id := by
  constructor
  · rintro ⟨i, before, reached, calls⟩
    rcases Nat.lt_or_ge i middle with left | right
    · exact .inl ⟨i, left, reached, calls⟩
    · exact .inr ⟨i, before, right, calls⟩
  · rintro (h | h)
    · exact h.mono (Nat.le_refl _) above
    · exact h.mono below (Nat.le_refl _)

theorem whole_of_length_le (h : messages.length ≤ start) : Whole messages start := by
  intro k id reached result
  have := result.lt
  omega

/-- A call stays, as it is no result. -/
theorem CallsAt.stays {i : Nat} (h : CallsAt messages i id) : Stays messages low i := by
  obtain ⟨caller, here, assistant, -⟩ := h
  intro m among role
  cases Option.mem_unique among here
  rw [assistant] at role
  cases role

theorem ResultAt.stays_iff (h : ResultAt messages k id) :
    Stays messages low k ↔ CalledIn messages low k id := by
  obtain ⟨m, here, role, result⟩ := h
  constructor
  · intro stays
    obtain ⟨other, same, called⟩ := stays m here role
    rw [result] at same
    cases same
    exact called
  · intro called other among _
    cases Option.mem_unique among here
    exact ⟨id, result, called⟩

/-- Only results whose call lies further back stay or go with the stretch that is looked at. -/
theorem Stays.mono {low' : Nat} (h : Stays messages low k) (below : low' ≤ low) :
    Stays messages low' k := by
  intro m here role
  obtain ⟨id, result, called⟩ := h m here role
  exact ⟨id, result, called.mono below (Nat.le_refl _)⟩

/-- Behind a whole start every call of a result lies in the window, if there is one. -/
theorem Whole.calledIn (whole : Whole messages start) (reached : start ≤ k)
    (result : ResultAt messages k id) (called : CalledIn messages 0 k id) :
    CalledIn messages start k id := by
  rcases (calledIn_iff_or (Nat.zero_le start) reached).mp called with before | within
  · exact whole k id reached result before
  · exact within

theorem Whole.stays_iff (whole : Whole messages start) (reached : start ≤ k) :
    Stays messages start k ↔ Stays messages 0 k := by
  constructor
  · exact fun h => h.mono (Nat.zero_le _)
  · intro h m here role
    obtain ⟨id, result, called⟩ := h m here role
    exact ⟨id, result, whole.calledIn reached ⟨m, here, role, result⟩ called⟩

theorem mem_staying :
    k ∈ staying messages low start ↔ start ≤ k ∧ k < messages.length ∧ Stays messages low k := by
  simp only [staying, List.mem_filter, List.mem_range'_1, decide_eq_true_eq]
  constructor
  · rintro ⟨⟨reached, before⟩, stays⟩
    exact ⟨reached, by omega, stays⟩
  · rintro ⟨reached, before, stays⟩
    exact ⟨⟨reached, by omega⟩, stays⟩

theorem staying_increasing : (staying messages low start).Pairwise (· < ·) :=
  List.Pairwise.filter _ List.pairwise_lt_range'

theorem Whole.staying_eq (whole : Whole messages start) :
    staying messages start start = staying messages 0 start := by
  refine List.filter_congr fun k among => ?_
  have reached : start ≤ k := (List.mem_range'_1.mp among).1
  simp only [whole.stays_iff reached]

end Positions

/-! ## Walking over a window

Both walks over a window carry the identifiers that were called since its start.
-/

section Walks

variable {messages : List Message} {low start k : Nat} {id : String} {m : Message}

theorem callsAt_iff (plain : Plain messages) (here : messages[k]? = some m) :
    CallsAt messages k id ↔ id ∈ callIds m := by
  rw [callIds, List.mem_map]
  constructor
  · rintro ⟨other, among, -, calls⟩
    cases Option.mem_unique among here
    exact calls
  · rintro ⟨c, among, same⟩
    refine ⟨m, here, ?_, c, among, same⟩
    refine Decidable.byContradiction fun other => ?_
    rw [plain m (List.mem_of_getElem? here) other] at among
    cases among

theorem calledIn_succ (reached : low ≤ k) :
    CalledIn messages low (k + 1) id ↔ CallsAt messages k id ∨ CalledIn messages low k id := by
  constructor
  · rintro ⟨i, before, after, calls⟩
    rcases Nat.lt_succ_iff_lt_or_eq.mp before with earlier | rfl
    · exact .inr ⟨i, earlier, after, calls⟩
    · exact .inl calls
  · rintro (calls | called)
    · exact ⟨k, Nat.lt_succ_self k, reached, calls⟩
    · exact called.mono (Nat.le_refl _) (Nat.le_succ k)

def Seen (messages : List Message) (low k : Nat) (seen : List String) : Prop :=
  ∀ id, id ∈ seen ↔ CalledIn messages low k id

theorem seen_nil : Seen messages start start [] := by
  intro id
  constructor
  · intro among
    cases among
  · rintro ⟨i, before, after, -⟩
    omega

theorem Seen.next {seen : List String} (h : Seen messages low k seen) (plain : Plain messages)
    (reached : low ≤ k) (here : messages[k]? = some m) :
    Seen messages low (k + 1) (callIds m ++ seen) := by
  intro id
  rw [List.mem_append, calledIn_succ reached, callsAt_iff plain here, h id]

theorem staying_of_lt (before : k < messages.length) :
    staying messages low k =
      if Stays messages low k then k :: staying messages low (k + 1)
      else staying messages low (k + 1) := by
  have size : messages.length - k = (messages.length - (k + 1)) + 1 := by omega
  rw [staying, staying, size, List.range'_succ, List.filter_cons]
  simp only [decide_eq_true_eq]

theorem staying_of_ge (beyond : messages.length ≤ k) : staying messages low k = [] := by
  rw [staying, Nat.sub_eq_zero_of_le beyond, List.range'_zero, List.filter_nil]

theorem pairedFrom_drop (plain : Plain messages) {seen : List String} (reached : low ≤ k)
    (h : Seen messages low k seen) :
    pairedFrom seen (messages.drop k) = messagesAt messages (staying messages low k) := by
  induction left : messages.length - k generalizing k seen with
  | zero =>
    have beyond : messages.length ≤ k := by omega
    rw [List.drop_of_length_le beyond, staying_of_ge beyond]
    rfl
  | succ n ih =>
    have before : k < messages.length := by omega
    have here : messages[k]? = some messages[k] := List.getElem?_eq_getElem before
    have later := h.next plain reached here
    have rest := ih (Nat.le_succ_of_le reached) later (by omega)
    rw [List.drop_eq_getElem_cons before, staying_of_lt before]
    rcases pairedFrom_cons seen messages[k] (messages.drop (k + 1)) with
      ⟨kept, known⟩ | ⟨dropped, isResult, unknown⟩
    · have stays : Stays messages low k := by
        intro m among role
        cases Option.mem_unique among here
        obtain ⟨id, found, result⟩ := known role
        rw [callIds_eq_nil (plain _ (List.getElem_mem before) (by simp [role])),
          List.nil_append] at found
        exact ⟨id, result, (h id).mp found⟩
      rw [kept, rest, if_pos stays, messagesAt, messagesAt, List.filterMap_cons_some here]
    · have goes : ¬ Stays messages low k := by
        intro stays
        obtain ⟨id, result, called⟩ := stays _ here isResult
        exact unknown id (List.mem_append_right _ ((h id).mpr called)) result
      rw [dropped, rest, if_neg goes]

theorem mem_strandedFrom_cons (seen : List String) (m : Message) (rest : List Message) :
    id ∈ strandedFrom seen (m :: rest) ↔
      (m.role = .tool ∧ m.toolCallId = some id ∧ id ∉ callIds m ++ seen) ∨
        id ∈ strandedFrom (callIds m ++ seen) rest := by
  cases role : m.role with
  | tool =>
    cases result : m.toolCallId with
    | none => simp [strandedFrom, role, result]
    | some other =>
      by_cases known : other ∈ callIds m ++ seen
      · rw [strandedFrom, role, result]
        simp only [if_pos known, Option.some.injEq, true_and]
        constructor
        · exact .inr
        · rintro (⟨rfl, unknown⟩ | among)
          · exact (unknown known).elim
          · exact among
      · rw [strandedFrom, role, result]
        simp only [if_neg known, List.mem_cons, Option.some.injEq, true_and]
        constructor
        · rintro (rfl | among)
          · exact .inl ⟨rfl, known⟩
          · exact .inr among
        · rintro (⟨rfl, -⟩ | among)
          · exact .inl rfl
          · exact .inr among
  | _ => simp [strandedFrom, role]

theorem mem_strandedFrom (plain : Plain messages) {seen : List String} (reached : low ≤ k)
    (h : Seen messages low k seen) :
    id ∈ strandedFrom seen (messages.drop k) ↔
      ∃ r, k ≤ r ∧ ResultAt messages r id ∧ ¬ CalledIn messages low r id := by
  induction left : messages.length - k generalizing k seen with
  | zero =>
    have beyond : messages.length ≤ k := by omega
    rw [List.drop_of_length_le beyond]
    constructor
    · intro among
      cases among
    · rintro ⟨r, after, result, -⟩
      have := result.lt
      omega
  | succ n ih =>
    have before : k < messages.length := by omega
    have here : messages[k]? = some messages[k] := List.getElem?_eq_getElem before
    have later := h.next plain reached here
    rw [List.drop_eq_getElem_cons before, mem_strandedFrom_cons,
      ih (Nat.le_succ_of_le reached) later (by omega)]
    have silent (role : messages[k].role = .tool) : callIds messages[k] = [] :=
      callIds_eq_nil (plain _ (List.getElem_mem before) (by simp [role]))
    constructor
    · rintro (⟨role, result, unknown⟩ | ⟨r, after, found⟩)
      · rw [silent role, List.nil_append, h id] at unknown
        exact ⟨k, Nat.le_refl k, ⟨_, here, role, result⟩, unknown⟩
      · exact ⟨r, by omega, found⟩
    · rintro ⟨r, after, result, unknown⟩
      rcases Nat.eq_or_lt_of_le after with rfl | after
      · obtain ⟨m, among, role, result⟩ := result
        cases Option.mem_unique among here
        refine .inl ⟨role, result, ?_⟩
        rwa [silent role, List.nil_append, h id]
      · exact .inr ⟨r, after, result, unknown⟩

end Walks

/-! ## Where the window begins -/

theorem lastIdx?_eq_none {α : Type} {p : α → Bool} {xs : List α} (h : lastIdx? p xs = none) :
    ∀ x ∈ xs, p x = false := by
  induction xs with
  | nil => simp
  | cons first xs ih =>
    simp only [lastIdx?] at h
    split at h
    · cases h
    · rename_i nowhere
      split at h
      · cases h
      · rename_i fails
        intro x among
        rcases List.mem_cons.mp among with rfl | among
        · simpa using fails
        · exact ih nowhere x among

theorem lastIdx?_eq_some {α : Type} {p : α → Bool} {xs : List α} {i : Nat}
    (h : lastIdx? p xs = some i) :
    (∃ x ∈ xs[i]?, p x = true) ∧ ∀ j, i < j → ∀ x ∈ xs[j]?, p x = false := by
  induction xs generalizing i with
  | nil => cases h
  | cons first xs ih =>
    simp only [lastIdx?] at h
    split at h
    · rename_i last found
      cases h
      obtain ⟨here, later⟩ := ih found
      refine ⟨by simpa using here, ?_⟩
      intro j after x among
      cases j with
      | zero => omega
      | succ j => exact later j (by omega) x (by simpa using among)
    · rename_i nowhere
      split at h
      · rename_i holds
        cases h
        refine ⟨⟨first, rfl, holds⟩, ?_⟩
        intro j after x among
        cases j with
        | zero => omega
        | succ j =>
          have among : xs[j]? = some x := by simpa using among
          exact lastIdx?_eq_none nowhere x (List.mem_of_getElem? among)
      · cases h

section Window

variable {messages : List Message} {start : Nat}

/-- A result of the window has this identifier, and no message before it in the window calls it. -/
def Stranded (messages : List Message) (start : Nat) (id : String) : Prop :=
  ∃ r, start ≤ r ∧ ResultAt messages r id ∧ ¬ CalledIn messages start r id

theorem mem_stranded (plain : Plain messages) {id : String} :
    id ∈ stranded (messages.drop start) ↔ Stranded messages start id :=
  mem_strandedFrom plain (Nat.le_refl start) seen_nil

theorem whole_iff :
    Whole messages start ↔ ∀ id, Stranded messages start id → ¬ CalledIn messages 0 start id := by
  constructor
  · rintro whole id ⟨r, after, result, alone⟩ before
    exact alone (whole r id after result before)
  · intro h r id after result before
    refine Decidable.byContradiction fun alone => ?_
    exact h id ⟨r, after, result, alone⟩ before

theorem owns_iff {ids : List String} {m : Message} {i : Nat} (here : messages[i]? = some m) :
    owns ids m = true ↔ ∃ id ∈ ids, CallsAt messages i id := by
  simp only [owns, Bool.and_eq_true, beq_iff_eq, List.any_eq_true, decide_eq_true_eq]
  constructor
  · rintro ⟨assistant, c, among, wanted⟩
    exact ⟨c.id, wanted, m, here, assistant, c, among, rfl⟩
  · rintro ⟨id, wanted, other, same, assistant, c, among, rfl⟩
    cases Option.mem_unique same here
    exact ⟨assistant, c, among, wanted⟩

theorem getElem?_of_take {n i : Nat} {m : Message} (h : (messages.take n)[i]? = some m) :
    i < n ∧ messages[i]? = some m := by
  rw [List.getElem?_take] at h
  split at h
  · exact ⟨‹_›, h⟩
  · cases h

/-- No start between the owner and the window is whole: the result that it would leave behind is
stranded from there on too. -/
theorem not_whole_of_owner (plain : Plain messages) {i s : Nat}
    (h : lastIdx? (owns (stranded (messages.drop start))) (messages.take start) = some i)
    (after : i < s) (upto : s ≤ start) : ¬ Whole messages s := by
  obtain ⟨⟨m, among, owner⟩, last⟩ := lastIdx?_eq_some h
  obtain ⟨-, here⟩ := getElem?_of_take among
  obtain ⟨id, lost, calls⟩ := (owns_iff here).mp owner
  obtain ⟨r, behind, result, alone⟩ := (mem_stranded plain).mp lost
  intro whole
  obtain ⟨j, before, reached, again⟩ := whole r id (by omega) result ⟨i, after, Nat.zero_le i, calls⟩
  rcases Nat.lt_or_ge j start with outside | inside
  · have ⟨caller, there, _⟩ := again
    have fails := last j (by omega) caller (by rwa [List.getElem?_take_of_lt outside])
    rw [(owns_iff there).mpr ⟨id, lost, again⟩] at fails
    cases fails
  · exact alone ⟨j, before, inside, again⟩

theorem whole_of_no_owner (plain : Plain messages)
    (h : lastIdx? (owns (stranded (messages.drop start))) (messages.take start) = none) :
    Whole messages start := by
  rw [whole_iff]
  rintro id lost ⟨i, before, -, calls⟩
  have ⟨caller, here, _⟩ := calls
  have among : caller ∈ messages.take start :=
    List.mem_of_getElem? (by rwa [List.getElem?_take_of_lt before])
  have fails := lastIdx?_eq_none h caller among
  rw [(owns_iff here).mpr ⟨id, (mem_stranded plain).mpr lost, calls⟩] at fails
  cases fails

/-- Moving to the nearest owner again and again stops at the last whole start. -/
theorem expand_isGreatest (plain : Plain messages) (start : Nat) :
    IsGreatest {s | s ≤ start ∧ Whole messages s} (expand messages start) := by
  induction start using Nat.strongRecOn with
  | ind start ih =>
    rw [expand]
    split
    · rename_i i owner
      have nearer : i < start := by
        have := lastIdx?_lt owner
        simp only [List.length_take] at this
        omega
      obtain ⟨⟨before, whole⟩, last⟩ := ih i nearer
      refine ⟨⟨by omega, whole⟩, ?_⟩
      rintro s ⟨upto, other⟩
      refine last ⟨?_, other⟩
      refine Decidable.byContradiction fun after => ?_
      exact not_whole_of_owner plain owner (by omega) upto other
    · rename_i nobody
      exact ⟨⟨Nat.le_refl start, whole_of_no_owner plain nobody⟩, fun s h => h.1⟩

end Window

/-! ## What is kept -/

section Kept

variable {messages : List Message} {low start : Nat}

def windowStart (policy : TrimPolicy) (max : Nat) (messages : List Message) : Nat :=
  match policy with
  | .expandLeft => expand messages (messages.length - max)
  | .dropOrphans => messages.length - max

theorem windowStart_zero (plain : Plain messages) (policy : TrimPolicy) :
    windowStart policy 0 messages = messages.length := by
  cases policy with
  | dropOrphans => rfl
  | expandLeft =>
    have greatest := expand_isGreatest plain messages.length
    exact Nat.le_antisymm greatest.1.1
      (greatest.2 ⟨Nat.le_refl _, whole_of_length_le (Nat.le_refl _)⟩)

/-- Both policies keep what stays by the calls of the window itself. -/
theorem trimWith_eq (plain : Plain messages) (policy : TrimPolicy) (max : Nat) :
    trimWith policy max messages =
      messagesAt messages
        (staying messages (windowStart policy max messages) (windowStart policy max messages)) := by
  unfold trimWith
  split
  · rename_i nothing
    rw [nothing, windowStart_zero plain, staying_of_ge (Nat.le_refl _)]
    rfl
  · exact pairedFrom_drop plain (Nat.le_refl _) seen_nil

theorem trim_eq (plain : Plain messages) (max : Nat) :
    trim max messages =
      messagesAt messages (staying messages 0 (expand messages (messages.length - max))) := by
  have whole := (expand_isGreatest plain (messages.length - max)).1.2
  rw [← whole.staying_eq]
  exact trimWith_eq plain .expandLeft max

/-- The window begins at the last whole start that leaves enough messages, and loses just the
results that have no earlier call in the conversation. -/
theorem trim_exact {messages : List Message} (plain : Plain messages) (max : Nat) :
    ∃ start, IsGreatest {s | s ≤ messages.length - max ∧ Whole messages s} start ∧
      trim max messages = messagesAt messages (staying messages 0 start) ∧
      (∀ k m, messages.length - max ≤ k → messages[k]? = some m → k ∉ staying messages 0 start →
        m.role = .tool ∧ ∀ id, m.toolCallId = some id → ¬ CalledIn messages 0 k id) ∧
      Called (trim max messages) := by
  have greatest := expand_isGreatest plain (messages.length - max)
  refine ⟨_, greatest, trim_eq plain max, ?_, called_trimWith .expandLeft max plain⟩
  intro k m last here gone
  have before : k < messages.length := (List.getElem?_eq_some_iff.mp here).1
  have goes : ¬ Stays messages 0 k :=
    fun stays => gone (mem_staying.mpr ⟨Nat.le_trans greatest.1.1 last, before, stays⟩)
  constructor
  · refine Decidable.byContradiction fun other => goes ?_
    intro m' among role
    cases Option.mem_unique among here
    exact (other role).elim
  · intro id result called
    refine goes ?_
    intro m' among _
    cases Option.mem_unique among here
    exact ⟨id, result, called⟩

end Kept

/-- The results of one message are split by another call; one result belongs to no call. -/
def tangled : List Message := [
  .assistant "" [⟨"a", "look", "{}"⟩, ⟨"b", "look", "{}"⟩], .toolResult "a" "",
  .assistant "" [⟨"c", "look", "{}"⟩], .toolResult "b" "", .toolResult "c" "", .toolResult "x" "",
  .user "Go on."]

theorem plain_tangled : Plain tangled := by
  unfold Plain
  decide

/-- The window of three grows twice: for `c`, and then for `b`. -/
theorem trim_exact_tangled :
    Plain tangled ∧ trim 3 tangled = messagesAt tangled [0, 1, 2, 3, 4, 6] := by
  obtain ⟨start, ⟨⟨bound, whole⟩, -⟩, kept, -⟩ := trim_exact plain_tangled 3
  have upto : start ≤ 4 := bound
  have second : start ≤ 2 := by
    refine Nat.le_of_not_lt fun after => ?_
    obtain ⟨i, before, reached, calls⟩ :=
      whole 4 "c" upto (by decide) ⟨2, after, Nat.zero_le 2, by decide⟩
    have third : i = 3 := by omega
    subst third
    exact absurd calls (by decide)
  have first : start = 0 := by
    refine Nat.eq_zero_of_not_pos fun after => ?_
    obtain ⟨i, before, reached, calls⟩ :=
      whole 3 "b" (by omega) (by decide) ⟨0, after, Nat.le_refl 0, by decide⟩
    have later : i = 1 ∨ i = 2 := by omega
    rcases later with rfl | rfl <;> exact absurd calls (by decide)
  subst first
  exact ⟨plain_tangled, kept⟩

end Ensemble.View
