import Mathlib.Algebra.Group.Action.Defs
import Mathlib.Algebra.Order.BigOperators.Group.List
import Mathlib.Algebra.Order.Ring.Nat
import Mathlib.Data.List.Chain
import Mathlib.Logic.Relation
import Ensemble.Agent.Team

/-!
# Who stands above an agent

A climb over the links upwards may meet an agent any number of times, and the links may form cycles.
It comes to its end all the same, as every turn takes away one of the links that are left
(`Climb.exists_end`). Whom it has seen by then is exactly who reaches the agent it started from
(`mem_ancestors_iff`), and that agent itself is among them when it lies on a cycle (`onCycle_iff`).
-/

namespace Ensemble.Team

open Relation (TransGen ReflTransGen)

variable {σ : Type} {t : Team σ} {name : String}

/-- The agent named `parent` lists `child` as a sub-agent. -/
def Lists (t : Team σ) (parent child : String) : Prop :=
  ∃ a ∈ t.agents, a.name = parent ∧ child ∈ a.subAgents

theorem mem_parents_iff {parent child : String} :
    parent ∈ t.parents child ↔ t.Lists parent child := by
  simp only [parents, Lists, List.mem_map, List.mem_filter, decide_eq_true_eq]
  constructor
  · rintro ⟨a, ⟨among, lists⟩, rfl⟩
    exact ⟨a, among, rfl, lists⟩
  · rintro ⟨a, among, rfl, lists⟩
    exact ⟨a, ⟨among, lists⟩, rfl⟩

theorem Lists.mem_names {parent child : String} (h : t.Lists parent child) : parent ∈ t.names := by
  obtain ⟨a, among, rfl, -⟩ := h
  exact List.mem_map.mpr ⟨a, among, rfl⟩

/-! ## The climb -/

namespace Climb

variable {c c' last : Climb}

theorem next?_eq_none_iff : c.next? t = none ↔ c.frontier = [] := by
  unfold next?
  split
  · rename_i frontier
    simp [frontier]
  · rename_i frontier
    split <;> simp [frontier]

def after? (t : Team σ) : Nat → Climb → Option Climb
  | 0, c => some c
  | turns + 1, c => (c.next? t).bind (after? t turns)

def met (c : Climb) : List String := c.seen ++ c.frontier

/-- What is so from the start of a climb from `name` on, and after every turn. -/
structure Rising (t : Team σ) (name : String) (c : Climb) : Prop where
  above : ∀ x ∈ c.met, TransGen t.Lists x name
  closed : ∀ x ∈ name :: c.seen, ∀ parent, t.Lists parent x → parent ∈ c.met
  once : c.seen.Nodup

namespace Rising

theorem start (t : Team σ) (name : String) : Rising t name (.start t name) := by
  have met (x : String) : x ∈ (Climb.start t name).met ↔ t.Lists x name := by
    rw [← mem_parents_iff]
    exact List.mem_reverse
  refine ⟨fun x among => .single ((met x).mp among), ?_, .nil⟩
  intro x itself parent lists
  obtain rfl := List.mem_singleton.mp itself
  exact (met parent).mpr lists

theorem next (h : Rising t name c) (turn : c.next? t = some c') : Rising t name c' := by
  obtain ⟨seen, frontier⟩ := c
  obtain ⟨x, rest, rfl, ⟨old, rfl⟩ | ⟨new, rfl⟩⟩ := next?_eq_some turn
  · -- an agent seen before leaves the frontier, and is still met
    have same (y : String) : y ∈ met ⟨seen, x :: rest⟩ ↔ y ∈ met ⟨seen, rest⟩ := by
      simp only [met, List.mem_append, List.mem_cons]
      constructor
      · rintro (among | rfl | among)
        · exact .inl among
        · exact .inl old
        · exact .inr among
      · rintro (among | among)
        · exact .inl among
        · exact .inr (.inr among)
    refine ⟨fun y among => h.above y ((same y).mpr among), ?_, h.once⟩
    intro y among parent lists
    exact (same parent).mp (h.closed y among parent lists)
  · -- a new one brings all that list it, so `closed` holds of it as well
    have more (y : String) : y ∈ met ⟨x :: seen, (t.parents x).reverse ++ rest⟩ ↔
        t.Lists y x ∨ y ∈ met ⟨seen, x :: rest⟩ := by
      simp only [met, List.mem_append, List.mem_cons, List.mem_reverse, mem_parents_iff]
      tauto
    have itself : TransGen t.Lists x name := h.above x (List.mem_append_right _ (.head _))
    refine ⟨?_, ?_, List.nodup_cons.mpr ⟨new, h.once⟩⟩
    · intro y among
      rcases (more y).mp among with lists | among
      · exact .head lists itself
      · exact h.above y among
    · intro y among parent lists
      rw [more]
      by_cases same : y = x
      · exact .inl (same ▸ lists)
      · have before : y ∈ name :: seen := by simpa [same] using among
        exact .inr (h.closed y before parent lists)

theorem after (h : Rising t name c) {turns : Nat} (go : c.after? t turns = some last) :
    Rising t name last := by
  induction turns generalizing c with
  | zero =>
    cases go
    exact h
  | succ turns ih =>
    obtain ⟨c', turn, later⟩ := Option.bind_eq_some_iff.mp go
    exact ih (h.next turn) later

/-- Once nobody is left to look at, the climb has seen all that stand above. -/
theorem mem_seen_iff (h : Rising t name c) (ended : c.frontier = []) {above : String} :
    above ∈ c.seen ↔ TransGen t.Lists above name := by
  have met : c.met = c.seen := by rw [Climb.met, ended, List.append_nil]
  constructor
  · intro seen
    exact h.above above (met ▸ seen)
  · intro reaches
    rw [← met]
    induction reaches using TransGen.head_induction_on with
    | single lists => exact h.closed name (.head _) _ lists
    | head lists _ ih => exact h.closed _ (.tail _ (met ▸ ih)) _ lists

end Rising

end Climb

theorem climb_of_none {c : Climb} (ended : c.next? t = none) : t.climb c = c.seen := by
  rw [climb]
  split
  · rfl
  · rename_i turn
    cases ended.symm.trans turn

theorem climb_of_some {c c' : Climb} (turn : c.next? t = some c') : t.climb c = t.climb c' := by
  rw [climb]
  split
  · rename_i ended
    cases ended.symm.trans turn
  · rename_i turn'
    cases turn.symm.trans turn'
    rfl

theorem Climb.exists_end (t : Team σ) (c : Climb) :
    ∃ turns last, turns ≤ t.turnsLeft c ∧ c.after? t turns = some last ∧ last.next? t = none ∧
      last.seen = t.climb c := by
  induction c using climb.induct (t := t) with
  | case1 c ended => exact ⟨0, c, Nat.zero_le _, rfl, ended, (climb_of_none ended).symm⟩
  | case2 c c' turn ih =>
    obtain ⟨turns, last, few, go, ended, seen⟩ := ih
    refine ⟨turns + 1, last, ?_, ?_, ended, seen.trans (climb_of_some turn).symm⟩
    · rw [turnsLeft_eq turn]
      exact Nat.succ_le_succ few
    · rw [after?, turn]
      exact go

theorem length_parents_le (t : Team σ) (name : String) :
    (t.parents name).length ≤ t.agents.length := by
  rw [parents, List.length_map]
  exact List.length_filter_le _ _

theorem linksLeft_le (t : Team σ) (seen : List String) :
    t.linksLeft seen ≤ t.agents.length * t.agents.length := by
  have unseen : (t.names.filter (· ∉ seen)).length ≤ t.agents.length := by
    have := List.length_filter_le (· ∉ seen) t.names
    rwa [names, List.length_map] at this
  have each : ∀ links ∈ (t.names.filter (· ∉ seen)).map fun name => (t.parents name).length,
      links ≤ t.agents.length := by
    intro links among
    obtain ⟨name, -, rfl⟩ := List.mem_map.mp among
    exact t.length_parents_le name
  have total := List.sum_le_card_nsmul _ _ each
  rw [List.length_map, smul_eq_mul, ← List.length_flatMap] at total
  exact total.trans (Nat.mul_le_mul_right _ unseen)

theorem turnsLeft_start_le (t : Team σ) (name : String) :
    t.turnsLeft (.start t name) ≤ t.agents.length * (t.agents.length + 1) := by
  have first := t.length_parents_le name
  have later := t.linksLeft_le []
  rw [Nat.mul_succ, Nat.add_comm]
  rw [← List.length_reverse] at first
  exact Nat.add_le_add first later

/-! ## The agents above -/

theorem exists_ancestors_end (t : Team σ) (name : String) :
    ∃ last : Climb, last.Rising t name ∧ last.frontier = [] ∧ last.seen = t.ancestors name := by
  obtain ⟨turns, last, -, go, ended, seen⟩ := Climb.exists_end t (.start t name)
  exact ⟨last, (Climb.Rising.start t name).after go, Climb.next?_eq_none_iff.mp ended, seen⟩

theorem mem_ancestors_iff {above : String} :
    above ∈ t.ancestors name ↔ TransGen t.Lists above name := by
  obtain ⟨last, rising, ended, seen⟩ := t.exists_ancestors_end name
  rw [← seen]
  exact rising.mem_seen_iff ended

theorem ancestors_nodup (t : Team σ) (name : String) : (t.ancestors name).Nodup := by
  obtain ⟨last, rising, -, seen⟩ := t.exists_ancestors_end name
  rw [← seen]
  exact rising.once

theorem not_above_of_mem_handoffTargets {target : Agent σ} (h : target ∈ t.handoffTargets name) :
    target.name ≠ name ∧ ¬ TransGen t.Lists target.name name := by
  have kept := (List.mem_filter.mp h).2
  rwa [decide_eq_true_eq, mem_ancestors_iff] at kept

/-! ## Cycles -/

/-- Links lead from `name` round to itself, past each agent on the way once. -/
def OnCycle (t : Team σ) (name : String) : Prop :=
  ∃ way : List String, (name :: way).Nodup ∧ (name :: (way ++ [name])).IsChain t.Lists

theorem transGen_of_isChain {a b : String} {way : List String}
    (h : (a :: (way ++ [b])).IsChain t.Lists) : TransGen t.Lists a b := by
  have far : (a :: (way ++ [b])).Pairwise (TransGen t.Lists) :=
    List.isChain_iff_pairwise.mp (h.imp fun _ _ => .single)
  exact List.rel_of_pairwise_cons far (List.mem_append_right _ (.head _))

/-- A way can be cut short until it comes past no agent twice. -/
theorem exists_simple_way {a b : String} (h : TransGen t.Lists a b) :
    ∃ way : List String, (a :: way).Nodup ∧ b ∉ way ∧ (a :: (way ++ [b])).IsChain t.Lists := by
  induction h using TransGen.head_induction_on with
  | single lists => exact ⟨[], by simp, by simp, List.isChain_pair.mpr lists⟩
  | @head a c lists _ ih =>
    obtain ⟨way, once, ends, chain⟩ := ih
    by_cases same : a = c
    · subst same
      exact ⟨way, once, ends, chain⟩
    by_cases back : a ∈ way
    · -- what lies before `a` on the way is left out
      obtain ⟨front, way', rfl⟩ := List.append_of_mem back
      have split : c :: (front ++ a :: way' ++ [b]) = (c :: front) ++ a :: (way' ++ [b]) := by simp
      rw [split] at chain
      refine ⟨way', ?_, ?_, chain.right_of_append⟩
      · exact (List.nodup_cons.mp once).2.sublist (List.sublist_append_right _ _)
      · exact fun among => ends (List.mem_append_right _ (.tail _ among))
    by_cases there : c = b
    · subst there
      exact ⟨[], by simp, by simp, List.isChain_pair.mpr lists⟩
    · refine ⟨c :: way, ?_, ?_, List.isChain_cons_cons.mpr ⟨lists, chain⟩⟩
      · exact List.nodup_cons.mpr ⟨by simp [same, back], once⟩
      · simp [Ne.symm there, ends]

theorem onCycle_iff : t.OnCycle name ↔ TransGen t.Lists name name := by
  constructor
  · rintro ⟨way, -, chain⟩
    exact transGen_of_isChain chain
  · intro cycle
    obtain ⟨way, once, -, chain⟩ := exists_simple_way cycle
    exact ⟨way, once, chain⟩

/-- From every name, also one that no agent has, the climb comes to its end and has then seen, each
once, exactly the agents that reach `name` by one link or more. So `name` is among them just when it
lies on a cycle, and it is never handed down to an agent that reaches it. -/
theorem ancestors_exact (t : Team σ) (name : String) :
    (∃ turns last, turns ≤ t.agents.length * (t.agents.length + 1) ∧
      (Climb.start t name).after? t turns = some last ∧ last.next? t = none ∧
      last.seen = t.ancestors name) ∧
    (t.ancestors name).Nodup ∧
    (∀ above, above ∈ t.ancestors name ↔ TransGen t.Lists above name) ∧
    (name ∈ t.ancestors name ↔ t.OnCycle name) ∧
    ∀ target ∈ t.handoffTargets name, ¬ ReflTransGen t.Lists target.name name := by
  refine ⟨?_, t.ancestors_nodup name, fun _ => mem_ancestors_iff,
    mem_ancestors_iff.trans onCycle_iff.symm, ?_⟩
  · obtain ⟨turns, last, few, go, ended, seen⟩ := Climb.exists_end t (.start t name)
    exact ⟨turns, last, few.trans (t.turnsLeft_start_le name), go, ended, seen⟩
  · intro target among reaches
    obtain ⟨other, notAbove⟩ := not_above_of_mem_handoffTargets among
    rcases Relation.reflTransGen_iff_eq_or_transGen.mp reaches with same | reaches
    · exact other same.symm
    · exact notAbove reaches

/-! ## A sample

Two agents list each other. The second also lists a third one, twice, which lists itself. -/

namespace Sample

def silent : Model Unit where
  name := "none"
  model := "none"
  options := {}
  pricing := none
  complete _ _ world := (.ok [], world)

def ring : Team Unit where
  agents := [{ name := "a", model := silent, subAgents := ["b"] },
    { name := "b", model := silent, subAgents := ["a", "c", "c"] },
    { name := "c", model := silent, subAgents := ["c"] }]
  root := { name := "a", model := silent, subAgents := ["b"] }
  distinct := by decide
  known := by decide
  root_mem := .head _

end Sample

/-- The third agent has all three above it, itself included. The second one hands over to it but not
back to the first, and nobody stands above a name that no agent has. -/
theorem ancestors_exact_ring :
    let t := Sample.ring
    (∃ turns last, turns ≤ 12 ∧ (Climb.start t "c").after? t turns = some last ∧
      last.next? t = none ∧ last.seen = ["a", "b", "c"]) ∧
    TransGen t.Lists "a" "c" ∧ t.OnCycle "a" ∧ t.OnCycle "c" ∧
    (t.handoffTargets "b").map (·.name) = ["c", "c"] ∧ ¬ ReflTransGen t.Lists "c" "b" ∧
    ∀ above, ¬ TransGen t.Lists above "nobody" := by
  intro t
  have aboveA : t.ancestors "a" = ["a", "b"] := by cbv
  have aboveC : t.ancestors "c" = ["a", "b", "c"] := by cbv
  have aboveNobody : t.ancestors "nobody" = [] := by cbv
  have targets : (t.handoffTargets "b").map (·.name) = ["c", "c"] := by cbv
  obtain ⟨ends, -, reach, cycle, -⟩ := ancestors_exact t "c"
  obtain ⟨-, -, -, cycleA, -⟩ := ancestors_exact t "a"
  obtain ⟨-, -, -, -, down⟩ := ancestors_exact t "b"
  obtain ⟨-, -, none, -⟩ := ancestors_exact t "nobody"
  rw [aboveC] at ends reach cycle
  rw [aboveA] at cycleA
  rw [aboveNobody] at none
  obtain ⟨target, among, name⟩ : ∃ target ∈ t.handoffTargets "b", target.name = "c" := by
    rw [← List.mem_map, targets]
    exact .head _
  refine ⟨ends, (reach "a").mp (.head _), cycleA.mp (.head _), cycle.mp (by decide), targets,
    name ▸ down target among, ?_⟩
  intro above reaches
  cases (none above).mpr reaches

end Ensemble.Team
