import Mathlib.Data.List.Basic
import Ensemble.Proofs.View.Trimming

/-!
# The two policies compared

Dropping orphans keeps some of what growing the window keeps (`staying_sublist`). Where the window
grows, it grows by the call that was missing, so the two agree just when the plain window is whole.
Trimming again changes nothing: the positions of a window with a whole start keep their order, and a
later whole start of what was kept would have been one of the conversation (`Whole.of_messagesAt`).
-/

namespace Ensemble.View

variable {messages : List Message} {positions : List Nat} {low start : Nat}

/-! ## Increasing positions -/

theorem lt_iff_of_increasing (increasing : positions.Pairwise (· < ·)) {a b x y : Nat}
    (here : positions[a]? = some x) (there : positions[b]? = some y) : x < y ↔ a < b := by
  obtain ⟨ha, rfl⟩ := List.getElem?_eq_some_iff.mp here
  obtain ⟨hb, rfl⟩ := List.getElem?_eq_some_iff.mp there
  have ordered := List.pairwise_iff_getElem.mp increasing
  constructor
  · intro less
    rcases Nat.lt_trichotomy a b with before | rfl | after
    · exact before
    · omega
    · have := ordered b a hb ha after
      omega
  · exact ordered a b ha hb

theorem add_le_of_increasing (increasing : positions.Pairwise (· < ·)) {n a x : Nat}
    (below : ∀ k ∈ positions, k < n) (here : positions[a]? = some x) :
    x + (positions.length - a) ≤ n := by
  induction positions generalizing a x with
  | nil => cases here
  | cons first rest ih =>
    obtain ⟨before, increasing⟩ := List.pairwise_cons.mp increasing
    have below' : ∀ k ∈ rest, k < n := fun k among => below k (.tail _ among)
    cases a with
    | succ a =>
      have := ih increasing below' (by simpa using here)
      simpa using this
    | zero =>
      cases here
      cases rest with
      | nil =>
        exact below first (.head _)
      | cons second rest =>
        have next := ih increasing below' (a := 0) rfl
        have := before second (.head _)
        simp only [List.length_cons] at next ⊢
        omega

/-! ## Messages at positions -/

theorem getElem?_messagesAt (valid : ∀ k ∈ positions, k < messages.length) (j : Nat) :
    (messagesAt messages positions)[j]? = positions[j]?.bind (messages[·]?) := by
  induction positions generalizing j with
  | nil => rfl
  | cons first rest ih =>
    have here := List.getElem?_eq_getElem (valid first (.head _))
    rw [messagesAt, List.filterMap_cons_some here]
    cases j with
    | zero => simp
    | succ j => exact ih (fun k among => valid k (.tail _ among)) j

theorem length_messagesAt (valid : ∀ k ∈ positions, k < messages.length) :
    (messagesAt messages positions).length = positions.length := by
  refine List.filterMap_length_eq_length.mpr fun k among => ?_
  rw [List.getElem?_eq_getElem (valid k among)]
  rfl

theorem callsAt_messagesAt (valid : ∀ k ∈ positions, k < messages.length) {j : Nat} {id : String} :
    CallsAt (messagesAt messages positions) j id ↔
      ∃ k ∈ positions[j]?, CallsAt messages k id := by
  simp only [CallsAt, getElem?_messagesAt valid, Option.mem_def, Option.bind_eq_some_iff]
  constructor
  · rintro ⟨m, ⟨k, there, here⟩, calls⟩
    exact ⟨k, there, m, here, calls⟩
  · rintro ⟨k, there, m, here, calls⟩
    exact ⟨m, ⟨k, there, here⟩, calls⟩

theorem resultAt_messagesAt (valid : ∀ k ∈ positions, k < messages.length) {j : Nat} {id : String} :
    ResultAt (messagesAt messages positions) j id ↔
      ∃ k ∈ positions[j]?, ResultAt messages k id := by
  simp only [ResultAt, getElem?_messagesAt valid, Option.mem_def, Option.bind_eq_some_iff]
  constructor
  · rintro ⟨m, ⟨k, there, here⟩, result⟩
    exact ⟨k, there, m, here, result⟩
  · rintro ⟨k, there, m, here, result⟩
    exact ⟨m, ⟨k, there, here⟩, result⟩

theorem plain_messagesAt (plain : Plain messages) : Plain (messagesAt messages positions) := by
  intro m among
  obtain ⟨k, -, here⟩ := List.mem_filterMap.mp among
  exact plain m (List.mem_of_getElem? here)

theorem staying_valid : ∀ k ∈ staying messages low start, k < messages.length :=
  fun _ among => (mem_staying.mp among).2.1

theorem length_staying_le : (staying messages low start).length ≤ messages.length - start := by
  have bound := List.length_filter_le (fun k => decide (Stays messages low k))
    (List.range' start (messages.length - start))
  rwa [List.length_range'] at bound

theorem staying_sublist {low' start' : Nat} (below : low' ≤ low) (before : start' ≤ start)
    (inside : start ≤ messages.length) :
    (staying messages low start).Sublist (staying messages low' start') := by
  have stretch : List.range' start' (messages.length - start') =
      List.range' start' (start - start') ++ List.range' start (messages.length - start) := by
    have size : messages.length - start' = (start - start') + (messages.length - start) := by omega
    have next : start = start' + 1 * (start - start') := by omega
    rw [size, ← List.range'_append, ← next]
  have suffix : (List.range' start (messages.length - start)).Sublist
      (List.range' start' (messages.length - start')) := by
    rw [stretch]
    exact List.sublist_append_right _ _
  refine (suffix.filter _).trans (List.monotone_filter_right _ fun k stays => ?_)
  simp only [decide_eq_true_eq] at stays ⊢
  exact stays.mono below

/-! ## Trimming again -/

theorem messagesAt_staying_of_called (called : Called messages) :
    messagesAt messages (staying messages 0 0) = messages := by
  have all : staying messages 0 0 = List.range' 0 messages.length := by
    refine List.filter_eq_self.mpr fun k among => ?_
    rw [decide_eq_true_eq]
    intro m here role
    have inside : k < messages.length := (List.getElem?_eq_some_iff.mp here).1
    have split : messages = messages.take k ++ m :: messages.drop (k + 1) := by
      rw [← (List.getElem?_eq_some_iff.mp here).2, ← List.drop_eq_getElem_cons inside,
        List.take_append_drop]
    obtain ⟨caller, among, assistant, c, calls, result⟩ := called _ m _ split role
    obtain ⟨i, before, there⟩ := List.getElem_of_mem among
    rw [List.length_take] at before
    rw [List.getElem_take] at there
    refine ⟨c.id, result, i, by omega, Nat.zero_le i, caller, ?_, assistant, c, calls, rfl⟩
    exact List.getElem?_eq_some_iff.mpr ⟨by omega, there⟩
  rw [all]
  have valid : ∀ k ∈ List.range' 0 messages.length, k < messages.length := by
    intro k among
    have := (List.mem_range'_1.mp among).2
    omega
  refine List.ext_getElem? fun j => ?_
  rw [getElem?_messagesAt valid]
  rcases Nat.lt_or_ge j messages.length with inside | beyond
  · simp [List.getElem?_range' inside]
  · rw [List.getElem?_eq_none (by simpa using beyond), List.getElem?_eq_none beyond]
    rfl

theorem Whole.of_messagesAt (whole : Whole messages start) {j t : Nat}
    (there : (staying messages 0 start)[j]? = some t)
    (h : Whole (messagesAt messages (staying messages 0 start)) j) : Whole messages t := by
  have increasing : (staying messages 0 start).Pairwise (· < ·) := staying_increasing
  have position {k : Nat} (reached : start ≤ k) (inside : k < messages.length)
      (stays : Stays messages 0 k) : ∃ a, (staying messages 0 start)[a]? = some k :=
    List.mem_iff_getElem?.mp (mem_staying.mpr ⟨reached, inside, stays⟩)
  have after : start ≤ t := (mem_staying.mp (List.mem_of_getElem? there)).1
  intro k id reached result before
  -- The call lies in the window, and is kept there like the result.
  have called := whole.calledIn (after.trans reached) result (before.mono (Nat.le_refl 0) reached)
  obtain ⟨i, left, right, calls⟩ := called
  rcases Nat.lt_or_ge i t with outside | inside
  · obtain ⟨a, callHere⟩ := position right calls.lt calls.stays
    obtain ⟨b, resultHere⟩ := position (by omega) result.lt
      (result.stays_iff.mpr ⟨i, left, Nat.zero_le i, calls⟩)
    have first : a < j := (lt_iff_of_increasing increasing callHere there).mp outside
    have second : j ≤ b := by
      refine Nat.le_of_not_lt fun less => ?_
      have := (lt_iff_of_increasing increasing resultHere there).mpr less
      omega
    obtain ⟨c, upto, later, again⟩ := h b id second
      ((resultAt_messagesAt staying_valid).mpr ⟨k, resultHere, result⟩)
      ⟨a, first, Nat.zero_le a, (callsAt_messagesAt staying_valid).mpr ⟨i, callHere, calls⟩⟩
    obtain ⟨p, here, calls⟩ := (callsAt_messagesAt staying_valid).mp again
    refine ⟨p, (lt_iff_of_increasing increasing here resultHere).mpr upto, ?_, calls⟩
    refine Nat.le_of_not_lt fun less => ?_
    have := (lt_iff_of_increasing increasing here there).mp less
    omega
  · exact ⟨i, left, inside, calls⟩

/-- What growing the window keeps needs no shorter window. -/
theorem expand_trimmed (plain : Plain messages) {max : Nat} (positive : 0 < max) :
    expand (trim max messages) ((trim max messages).length - max) = 0 := by
  have greatest := expand_isGreatest plain (messages.length - max)
  rw [trim_eq plain, length_messagesAt staying_valid]
  generalize expand messages (messages.length - max) = start at greatest ⊢
  have plain' : Plain (messagesAt messages (staying messages 0 start)) := plain_messagesAt plain
  obtain ⟨⟨bound, whole⟩, -⟩ :=
    expand_isGreatest plain' ((staying messages 0 start).length - max)
  generalize expand _ _ = j at bound whole ⊢
  refine Decidable.byContradiction fun moved => ?_
  have inside : j < (staying messages 0 start).length := by omega
  have there := List.getElem?_eq_getElem inside
  have first := List.getElem?_eq_getElem (Nat.zero_lt_of_lt inside)
  have enough := add_le_of_increasing staying_increasing staying_valid there
  have after := (lt_iff_of_increasing staying_increasing first there).mpr (by omega)
  have reached := (mem_staying.mp (List.mem_of_getElem? first)).1
  have last := greatest.2 ⟨by omega, greatest.1.2.of_messagesAt there whole⟩
  omega

theorem length_dropOrphans_le (plain : Plain messages) (max : Nat) :
    (trimWith .dropOrphans max messages).length ≤ max := by
  rw [trimWith_eq plain, length_messagesAt staying_valid]
  refine Nat.le_trans length_staying_le ?_
  simp only [windowStart]
  omega

theorem trimWith_trimWith (plain : Plain messages) (policy : TrimPolicy) (max : Nat) :
    trimWith policy max (trimWith policy max messages) = trimWith policy max messages := by
  rcases Nat.eq_zero_or_pos max with rfl | positive
  · simp [trimWith]
  have plain' : Plain (trimWith policy max messages) := by
    rw [trimWith_eq plain]
    exact plain_messagesAt plain
  have start : windowStart policy max (trimWith policy max messages) = 0 := by
    cases policy with
    | expandLeft => exact expand_trimmed plain positive
    | dropOrphans =>
      exact Nat.sub_eq_zero_of_le (length_dropOrphans_le plain max)
  rw [trimWith_eq plain' policy max, start]
  exact messagesAt_staying_of_called (called_trimWith policy max plain)

/-! ## Agreement -/

/-- The windows of the policies hold the same just when the plain window is whole. -/
theorem trimWith_eq_iff (plain : Plain messages) (max : Nat) :
    trimWith .dropOrphans max messages = trimWith .expandLeft max messages ↔
      Whole messages (messages.length - max) := by
  have greatest := expand_isGreatest plain (messages.length - max)
  have grown : trimWith .expandLeft max messages = _ := trim_eq plain max
  rw [grown, trimWith_eq plain, windowStart]
  generalize expand messages (messages.length - max) = start at greatest ⊢
  generalize last : messages.length - max = plainStart at greatest ⊢
  constructor
  · intro same
    have sizes := congrArg List.length same
    rw [length_messagesAt staying_valid, length_messagesAt staying_valid] at sizes
    have all := (staying_sublist (Nat.zero_le plainStart) greatest.1.1 (by omega)).eq_of_length sizes
    intro k id reached result before
    refine Decidable.byContradiction fun alone => ?_
    -- The window grew by a message that makes the call.
    obtain ⟨i, left, right, calls⟩ := greatest.1.2.calledIn (greatest.1.1.trans reached) result
      (before.mono (Nat.le_refl 0) reached)
    have among : i ∈ staying messages 0 start := mem_staying.mpr ⟨right, calls.lt, calls.stays⟩
    rw [← all] at among
    exact alone ⟨i, left, (mem_staying.mp among).1, calls⟩
  · intro whole
    have same : start = plainStart :=
      Nat.le_antisymm greatest.1.1 (greatest.2 ⟨Nat.le_refl _, whole⟩)
    rw [same, whole.staying_eq]

/-- Dropping orphans keeps at most the wanted number of messages, in which every result stands
behind its call, and in their order a part of what growing the window keeps: all of it just when
no result among the last messages has its call only further back. -/
theorem trim_policies (plain : Plain messages) (max : Nat) :
    (trimWith .dropOrphans max messages).length ≤ max ∧
      Called (trimWith .dropOrphans max messages) ∧
      (trimWith .dropOrphans max messages).Sublist (trimWith .expandLeft max messages) ∧
      (trimWith .dropOrphans max messages = trimWith .expandLeft max messages ↔
        ¬ ∃ k id, messages.length - max ≤ k ∧ ResultAt messages k id ∧
          CalledIn messages 0 (messages.length - max) id ∧
          ¬ CalledIn messages (messages.length - max) k id) ∧
      ∀ policy, trimWith policy max (trimWith policy max messages) = trimWith policy max messages := by
  refine ⟨length_dropOrphans_le plain max, called_trimWith .dropOrphans max plain, ?_, ?_,
    fun policy => trimWith_trimWith plain policy max⟩
  · have grown : trimWith .expandLeft max messages = _ := trim_eq plain max
    rw [grown, trimWith_eq plain]
    exact (staying_sublist (Nat.zero_le _) (expand_isGreatest plain _).1.1 (Nat.sub_le _ _)).filterMap _
  · rw [trimWith_eq_iff plain]
    constructor
    · rintro whole ⟨k, id, reached, result, before, alone⟩
      exact alone (whole k id reached result before)
    · intro never k id reached result before
      exact Decidable.byContradiction fun alone => never ⟨k, id, reached, result, before, alone⟩

theorem trim_policies_tangled :
    Plain tangled ∧
      (trimWith .dropOrphans 3 tangled).Sublist (trimWith .expandLeft 3 tangled) ∧
      trimWith .dropOrphans 3 tangled ≠ trimWith .expandLeft 3 tangled := by
  obtain ⟨-, -, part, agree, -⟩ := trim_policies plain_tangled 3
  refine ⟨plain_tangled, part, fun same => ?_⟩
  exact agree.mp same ⟨4, "c", by decide, by decide, by decide, by decide⟩

end Ensemble.View
