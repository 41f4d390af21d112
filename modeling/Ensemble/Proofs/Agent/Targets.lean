import Mathlib.Data.Finset.Card
import Mathlib.Data.List.Dedup
import Ensemble.Proofs.Agent.Ancestors

/-!
# Whom an agent may hand over to

A handoff target of an agent is a sub-agent that does not stand above it, so handing over leads down
and never back (`handsTo_acyclic`), also when the links of the team form cycles.
-/

namespace Ensemble.Team

open Relation (TransGen)

variable {σ : Type} {t : Team σ}

/-- The agent named `target` is a handoff target of `source`. -/
def HandsTo (t : Team σ) (source target : String) : Prop :=
  target ∈ (t.handoffTargets source).map (·.name)

theorem name_of_get? {name : String} {a : Agent σ} (h : t.get? name = some a) : a.name = name := by
  simpa using List.find?_some h

theorem mem_names_iff {name : String} : name ∈ t.names ↔ ∃ a, t.agent name = .ok a := by
  unfold names agent
  cases found : t.get? name with
  | none =>
    have missing := List.find?_eq_none.mp found
    constructor
    · intro among
      obtain ⟨a, known, rfl⟩ := List.mem_map.mp among
      exact absurd (beq_self_eq_true a.name) (missing a known)
    · rintro ⟨a, lost⟩
      cases lost
  | some a =>
    have known := List.mem_of_find?_eq_some found
    exact ⟨fun _ => ⟨a, rfl⟩, fun _ => List.mem_map.mpr ⟨a, known, name_of_get? found⟩⟩

/-! ## Handing over -/

theorem mem_children {name : String} {child : Agent σ} (h : child ∈ t.children name) :
    child ∈ t.agents ∧ t.Lists name child.name := by
  unfold children at h
  split at h
  · rename_i a found
    obtain ⟨name', listed, get⟩ := List.mem_filterMap.mp h
    rw [← name_of_get? get] at listed
    exact ⟨List.mem_of_find?_eq_some get,
      a, List.mem_of_find?_eq_some found, name_of_get? found, listed⟩
  · cases h

theorem HandsTo.lists {source target : String} (h : t.HandsTo source target) :
    t.Lists source target := by
  obtain ⟨child, among, rfl⟩ := List.mem_map.mp h
  exact (mem_children (List.mem_of_mem_filter among)).2

theorem HandsTo.not_above {source target : String} (h : t.HandsTo source target) :
    target ≠ source ∧ ¬ TransGen t.Lists target source := by
  obtain ⟨child, among, rfl⟩ := List.mem_map.mp h
  exact not_above_of_mem_handoffTargets among

theorem HandsTo.mem_names {source target : String} (h : t.HandsTo source target) :
    target ∈ t.names := by
  obtain ⟨child, among, rfl⟩ := List.mem_map.mp h
  exact List.mem_map.mpr ⟨child, (mem_children (List.mem_of_mem_filter among)).1, rfl⟩

/-- Handing over never leads back to where it started. -/
theorem handsTo_acyclic (t : Team σ) (a : String) : ¬ TransGen t.HandsTo a a := by
  intro cycle
  obtain ⟨b, first, back⟩ := TransGen.head'_iff.mp cycle
  obtain ⟨other, notAbove⟩ := first.not_above
  rcases Relation.reflTransGen_iff_eq_or_transGen.mp back with same | back
  · exact other same.symm
  · exact notAbove (TransGen.mono (fun _ _ h => HandsTo.lists h) _ _ back)

/-! ## How far it is down -/

noncomputable def below (t : Team σ) (a : String) : Finset String :=
  open Classical in t.names.toFinset.filter (TransGen t.HandsTo a)

theorem mem_below {a b : String} : b ∈ t.below a ↔ b ∈ t.names ∧ TransGen t.HandsTo a b := by
  classical
  rw [below, Finset.mem_filter, List.mem_toFinset]

theorem HandsTo.below_lt {a b : String} (h : t.HandsTo a b) :
    (t.below b).card < (t.below a).card := by
  apply Finset.card_lt_card
  constructor
  · intro c hc
    obtain ⟨known, down⟩ := mem_below.mp hc
    exact mem_below.mpr ⟨known, .head h down⟩
  · intro same
    have itself : b ∈ t.below b := same (mem_below.mpr ⟨h.mem_names, .single h⟩)
    exact t.handsTo_acyclic b (mem_below.mp itself).2

theorem below_lt_length (t : Team σ) (a : String) : (t.below a).card < t.agents.length := by
  classical
  have known : t.root.name ∈ t.names := List.mem_map.mpr ⟨t.root, t.root_mem, rfl⟩
  have size : t.names.toFinset.card ≤ t.agents.length := by
    have := List.toFinset_card_le t.names
    rwa [names, List.length_map] at this
  apply Nat.lt_of_lt_of_le _ size
  apply Finset.card_lt_card
  constructor
  · intro b hb
    exact List.mem_toFinset.mpr (mem_below.mp hb).1
  · intro all
    -- with the root below it, `a` hands over, so it is of the team and below itself
    have missing (b : String) (mem : b ∈ t.names) : TransGen t.HandsTo a b :=
      (mem_below.mp (all (List.mem_toFinset.mpr mem))).2
    obtain ⟨b, first, -⟩ := TransGen.head'_iff.mp (missing _ known)
    exact t.handsTo_acyclic a (missing a first.lists.mem_names)

end Ensemble.Team
