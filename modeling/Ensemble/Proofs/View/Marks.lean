import Mathlib.Data.List.DropRight
import Ensemble.Proofs.Anthropic.Turns
import Ensemble.Proofs.Isolation
import Ensemble.Proofs.Summaries

/-!
# Marks in a view

A mark ends a stretch of a view that a provider may keep in its cache. Marks are set in the zones
before the conversation, at the end of one or two of them (`stretches_systemZones`), and none is
left in the conversation (`unmarked_conversation`). What is said later therefore leaves the view as
it is up to its last mark (`cacheable_append`), however the conversation is trimmed.
-/

namespace Ensemble

def Message.unmarked (m : Message) : Message := { m with checkpoint := false }

namespace View

/-- The lengths of the stretches that end in a mark. -/
def stretches (messages : List Message) : List Nat := messages.findIdxs (·.checkpoint) 1

/-- All up to the last mark. -/
def cacheable (messages : List Message) : List Message := messages.rdropWhile fun m => !m.checkpoint

def Unmarked (messages : List Message) : Prop := ∀ m ∈ messages, m.checkpoint = false

variable {front back zone invariant context summary : List Message}

theorem Unmarked.map_eq (h : Unmarked zone) : zone.map Message.unmarked = zone := by
  refine (List.map_congr_left fun m among => ?_).trans (List.map_id zone)
  have clear := h m among
  cases m
  cases clear
  rfl

theorem Unmarked.findIdxs (h : Unmarked zone) (start : Nat) :
    zone.findIdxs (·.checkpoint) start = [] :=
  List.findIdxs_eq_nil_iff.mpr h

theorem cacheable_append (h : Unmarked back) : cacheable (front ++ back) = cacheable front := by
  have passed : ∀ m ∈ back.reverse, (!m.checkpoint) = true := by
    intro m among
    rw [h m (List.mem_reverse.mp among)]
    rfl
  simp only [cacheable, List.rdropWhile, List.reverse_append, List.dropWhile_append_of_pos passed]

/-! ## Zones -/

theorem markLast_concat (front : List Message) (m : Message) :
    markLast (front ++ [m]) = front ++ [{ m with checkpoint := true }] := by
  induction front with
  | nil => rfl
  | cons first front ih =>
    rw [List.cons_append, List.cons_append, ← ih]
    cases front <;> rfl

theorem length_markLast (zone : List Message) : (markLast zone).length = zone.length := by
  rcases zone.eq_nil_or_concat' with rfl | ⟨front, m, rfl⟩
  · rfl
  · rw [markLast_concat, List.length_append, List.length_append]
    rfl

theorem map_markLast (h : Unmarked zone) : (markLast zone).map Message.unmarked = zone := by
  rcases zone.eq_nil_or_concat' with rfl | ⟨front, m, rfl⟩
  · rfl
  · rw [markLast_concat, List.map_append, ← h.map_eq, List.map_append]
    rfl

theorem findIdxs_markLast (h : Unmarked zone) (start : Nat) :
    (markLast zone).findIdxs (·.checkpoint) (1 + start) =
      if zone = [] then [] else [start + zone.length] := by
  rcases zone.eq_nil_or_concat' with rfl | ⟨front, m, rfl⟩
  · rfl
  · have clear : Unmarked front := fun m among => h m (List.mem_append_left _ among)
    rw [markLast_concat, List.findIdxs_append, clear.findIdxs, if_neg (by simp)]
    simp only [List.findIdxs_singleton, if_true, List.nil_append, List.length_append,
      List.length_singleton]
    congr 1
    omega

/-- The end of the first zone is marked and that of the second; the last zone stands in for the
second. -/
theorem stretches_systemZones (h : Unmarked invariant) (h' : Unmarked context)
    (h'' : Unmarked summary) (filled : invariant ≠ []) :
    stretches (systemZones invariant context summary) =
      invariant.length ::
        if context ≠ [] then [invariant.length + context.length]
        else if summary ≠ [] then [invariant.length + summary.length]
        else [] := by
  have first := findIdxs_markLast h 0
  have second := findIdxs_markLast h' invariant.length
  have third := findIdxs_markLast h'' invariant.length
  rw [if_neg filled, Nat.zero_add, Nat.add_zero] at first
  have present : invariant.isEmpty = false := by simpa using filled
  simp only [stretches, systemZones, List.findIdxs_append, List.length_append, length_markLast,
    first, second, present, Bool.false_or, List.isEmpty_iff]
  by_cases empty : context = []
  · subst empty
    simpa using third
  · simp [empty, h''.findIdxs]

theorem map_systemZones (h : Unmarked invariant) (h' : Unmarked context) (h'' : Unmarked summary) :
    (systemZones invariant context summary).map Message.unmarked =
      invariant ++ context ++ summary := by
  simp only [systemZones, List.map_append, map_markLast h, map_markLast h']
  congr 1
  split
  · exact map_markLast h''
  · exact h''.map_eq

/-! ## Views -/

section Views

variable {σ : Type} (here : Surroundings) (s : Session) (a : Agent σ) (t : Team σ)

theorem unmarked_invariantZone : Unmarked (invariantZone a t) :=
  invariantZone_all (fun _ => rfl) a t

theorem unmarked_contextZone : Unmarked (contextZone here s a) :=
  contextZone_all (fun _ => rfl) here s a

theorem unmarked_summaryZone : Unmarked (summaryZone s) := summaryZone_all (fun _ => rfl) s

theorem unmarked_narrate {m told : Message} {authorship : Authorship}
    (tells : narrate m authorship = some told) : told.checkpoint = false := by
  cases authorship with
  | own =>
    cases tells
    rfl
  | foreign author =>
    rcases narrate_foreign tells with ⟨text, rfl⟩ | ⟨-, rfl⟩
    · rfl
    · rfl

/-- A mark that a message brings along is taken off when the message is told. -/
theorem unmarked_conversation : Unmarked (conversation s a) := by
  intro v among
  obtain ⟨m, -, tells⟩ := told_of_conversation among
  exact unmarked_narrate tells

theorem cacheable_of : cacheable (View.of here s a t) =
    cacheable (systemZones (invariantZone a t) (contextZone here s a) (summaryZone s)) :=
  cacheable_append (unmarked_conversation s a)

theorem length_summaryZone : (summaryZone s).length = if s.latestSummary.isSome then 1 else 0 := by
  unfold summaryZone
  cases s.latestSummary <;> rfl

theorem cacheable_plus (ms : List Authored) :
    cacheable (View.of here (s.plus ms) a t) = cacheable (View.of here s a t) := by
  have latest : (s.plus ms).latestSummary = s.latestSummary := by
    rw [Session.latestSummary, Session.sinceSummary_plus]
  have summary : summaryZone (s.plus ms) = summaryZone s := by rw [summaryZone, latest, summaryZone]
  have context : contextZone here (s.plus ms) a = contextZone here s a := rfl
  rw [cacheable_of, cacheable_of, summary, context]

theorem stretches_of : stretches (View.of here s a t) =
    (invariantZone a t).length ::
      if contextZone here s a ≠ [] then [(invariantZone a t).length + (contextZone here s a).length]
      else if s.latestSummary.isSome then [(invariantZone a t).length + 1]
      else [] := by
  have zones := stretches_systemZones (unmarked_invariantZone a t) (unmarked_contextZone here s a)
    (unmarked_summaryZone s) (List.cons_ne_nil _ _)
  rw [stretches] at zones ⊢
  rw [View.of, List.findIdxs_append, zones, (unmarked_conversation s a).findIdxs, List.append_nil]
  have size := length_summaryZone s
  cases latest : s.latestSummary with
  | none =>
    rw [latest] at size
    simp [List.eq_nil_of_length_eq_zero size]
  | some text =>
    rw [latest] at size
    have filled : summaryZone s ≠ [] := List.ne_nil_of_length_pos (by simp [size])
    simp [filled, size]

/-- Marks stand in the zones only, so they are marks of system messages. -/
theorem countP_cached : (Anthropic.systemBlocks (View.of here s a t)).countP (·.cached) =
    (stretches (View.of here s a t)).length := by
  have marked : ∀ m ∈ View.of here s a t, m.checkpoint → m.role = .system := by
    intro m among checkpoint
    rcases List.mem_append.mp among with zone | told
    · exact zones_system here s a t m zone
    · rw [unmarked_conversation s a m told] at checkpoint
      cases checkpoint
  rw [stretches, List.length_findIdxs, Anthropic.systemBlocks_eq, List.countP_map,
    List.countP_filter]
  refine List.countP_congr fun m among => ?_
  have system := marked m among
  simpa using system

end Views

/-- A view consists of the zones and the conversation. Marked are the end of the first zone and that
of the second or else the summary, and nothing else; a provider gets as many system blocks to cache.
Up to its last mark the view stays as it is, whatever is said later. -/
theorem marks_stable {σ : Type} (here : Surroundings) (s : Session) (a : Agent σ) (t : Team σ) :
    let view := View.of here s a t
    let first := (invariantZone a t).length
    view.map Message.unmarked =
        invariantZone a t ++ contextZone here s a ++ summaryZone s ++ conversation s a ∧
      stretches view = first ::
        (if contextZone here s a ≠ [] then [first + (contextZone here s a).length]
        else if s.latestSummary.isSome then [first + 1]
        else []) ∧
      ((stretches view).length = 1 ∨ (stretches view).length = 2) ∧
      Unmarked (conversation s a) ∧
      (Anthropic.systemBlocks view).countP (·.cached) = (stretches view).length ∧
      ∀ ms : List Authored,
        cacheable view <+: View.of here (s.plus ms) a t ∧
          cacheable (View.of here (s.plus ms) a t) = cacheable view := by
  intro view first
  refine ⟨?_, stretches_of here s a t, ?_, unmarked_conversation s a, countP_cached here s a t, ?_⟩
  · have zones := map_systemZones (unmarked_invariantZone a t) (unmarked_contextZone here s a)
      (unmarked_summaryZone s)
    simp only [view, View.of, List.map_append, zones, (unmarked_conversation s a).map_eq]
  · rw [stretches_of]
    split
    · exact .inr rfl
    · split
      · exact .inr rfl
      · exact .inl rfl
  · intro ms
    have same := cacheable_plus here s a t ms
    refine ⟨?_, same⟩
    rw [← same]
    exact List.rdropWhile_prefix _ _

end View

end Ensemble
