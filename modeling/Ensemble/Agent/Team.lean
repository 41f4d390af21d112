import Ensemble.Agent.Basic

/-!
# Teams

A team is a list of agents with different names, each of which may list others as sub-agents. The
lists may form cycles; links upwards are derived. An agent hands a task down to its sub-agents,
but never to one that stands above it as well.
-/

namespace Ensemble

structure Team (σ : Type) where
  agents : List (Agent σ)
  root : Agent σ
  distinct : (agents.map (·.name)).Nodup
  known : ∀ a ∈ agents, ∀ child ∈ a.subAgents, child ∈ agents.map (·.name)
  root_mem : root ∈ agents

namespace Team

variable {σ : Type}

def names (t : Team σ) : List String := t.agents.map (·.name)

/-- The first name that stands a second time. -/
def repeated? : List String → List String → Option String
  | _, [] => none
  | seen, name :: rest => if name ∈ seen then some name else repeated? (name :: seen) rest

/-- The first link to an agent that does not exist, with the agent it starts from. -/
def dangling? (names : List String) (agents : List (Agent σ)) : Option (String × String) :=
  agents.findSome? fun a => (a.subAgents.find? (· ∉ names)).map fun child => (a.name, child)

def noAgents : Error := .config "agent graph needs at least one agent"

def repeatedName (name : String) : Error := .config ("duplicate agent name: " ++ name)

def danglingLink (link : String × String) : Error :=
  .config s!"agent {link.1} lists unknown sub-agent {link.2}"

/-- The first agent is the root. -/
def build (agents : List (Agent σ)) : Except Error (Team σ) :=
  match agents with
  | [] => .error noAgents
  | root :: rest =>
    let all := root :: rest
    let names := all.map (·.name)
    if distinct : names.Nodup then
      if known : ∀ a ∈ all, ∀ child ∈ a.subAgents, child ∈ names then
        .ok ⟨all, root, distinct, known, List.mem_cons_self⟩
      else .error (danglingLink ((dangling? names all).getD ("", "")))
    else .error (repeatedName ((repeated? [] names).getD ""))

def get? (t : Team σ) (name : String) : Option (Agent σ) := t.agents.find? (·.name == name)

def agent (t : Team σ) (name : String) : Except Error (Agent σ) :=
  match t.get? name with
  | some a => .ok a
  | none => .error (.agentNotFound name)

def withRoot (t : Team σ) (name : String) : Except Error (Team σ) :=
  match h : t.get? name with
  | some a => .ok { t with root := a, root_mem := List.mem_of_find?_eq_some h }
  | none => .error (.agentNotFound name)

def children (t : Team σ) (name : String) : List (Agent σ) :=
  match t.get? name with
  | some a => a.subAgents.filterMap t.get?
  | none => []

def parents (t : Team σ) (name : String) : List String :=
  (t.agents.filter fun a => name ∈ a.subAgents).map (·.name)

theorem parents_of_unknown {t : Team σ} {name : String} (h : name ∉ t.names) :
    t.parents name = [] := by
  unfold parents
  rw [List.map_eq_nil_iff, List.filter_eq_nil_iff]
  intro a among lists
  exact h (t.known a among name (of_decide_eq_true lists))

/-- A climb over the links upwards: whom it has seen, and whom it is still to look at, the next one
first. -/
structure Climb where
  seen : List String
  frontier : List String

namespace Climb

def start (t : Team σ) (name : String) : Climb := ⟨[], (t.parents name).reverse⟩

/-- One turn: looks at the next agent, and if it is new, goes on to all that list it. -/
def next? (t : Team σ) (c : Climb) : Option Climb :=
  match c.frontier with
  | [] => none
  | name :: rest =>
    if name ∈ c.seen then some ⟨c.seen, rest⟩
    else some ⟨name :: c.seen, (t.parents name).reverse ++ rest⟩

theorem next?_eq_some {t : Team σ} {c c' : Climb} (h : c.next? t = some c') :
    ∃ name rest, c.frontier = name :: rest ∧
      (name ∈ c.seen ∧ c' = ⟨c.seen, rest⟩ ∨
        name ∉ c.seen ∧ c' = ⟨name :: c.seen, (t.parents name).reverse ++ rest⟩) := by
  unfold next? at h
  split at h
  · cases h
  · rename_i name rest frontier
    refine ⟨name, rest, frontier, ?_⟩
    split at h
    · rename_i old
      exact .inl ⟨old, (Option.some.inj h).symm⟩
    · rename_i new
      exact .inr ⟨new, (Option.some.inj h).symm⟩

end Climb

/-- The number of links that lead to an agent not in `seen`. -/
def linksLeft (t : Team σ) (seen : List String) : Nat :=
  ((t.names.filter (· ∉ seen)).flatMap t.parents).length

theorem linksLeft_eq {t : Team σ} {seen : List String} {name : String} (new : name ∉ seen) :
    t.linksLeft seen = (t.parents name).length + t.linksLeft (name :: seen) := by
  unfold linksLeft
  by_cases known : name ∈ t.names
  · have distinct : (t.names.filter (· ∉ seen)).Nodup := List.Pairwise.filter _ t.distinct
    have among : name ∈ t.names.filter (· ∉ seen) := List.mem_filter.mpr ⟨known, by simpa using new⟩
    have others : (t.names.filter (· ∉ seen)).erase name = t.names.filter (· ∉ name :: seen) := by
      rw [List.Nodup.erase_eq_filter distinct, List.filter_filter]
      apply List.filter_congr
      simp [bne, ← Bool.beq_eq_decide_eq]
    have parted := ((List.perm_cons_erase among).flatMap_right t.parents).length_eq
    rwa [others, List.flatMap_cons, List.length_append] at parted
  · have others : t.names.filter (· ∉ name :: seen) = t.names.filter (· ∉ seen) := by
      apply List.filter_congr
      intro other among
      have different : other ≠ name := ne_of_mem_of_not_mem among known
      simp [different]
    rw [others, parents_of_unknown known]
    exact (Nat.zero_add _).symm

/-- How many turns a climb takes if it comes to see everyone. -/
def turnsLeft (t : Team σ) (c : Climb) : Nat := c.frontier.length + t.linksLeft c.seen

theorem turnsLeft_eq {t : Team σ} {c c' : Climb} (h : c.next? t = some c') :
    t.turnsLeft c = t.turnsLeft c' + 1 := by
  obtain ⟨seen, frontier⟩ := c
  obtain ⟨name, rest, rfl, ⟨-, rfl⟩ | ⟨new, rfl⟩⟩ := Climb.next?_eq_some h
  · simp only [turnsLeft, List.length_cons]
    omega
  · -- the links to a new agent pass from those that are left into the frontier
    simp only [turnsLeft, linksLeft_eq new, List.length_cons, List.length_append,
      List.length_reverse]
    omega

def climb (t : Team σ) (c : Climb) : List String :=
  match _h : c.next? t with
  | none => c.seen
  | some c' => climb t c'
termination_by t.turnsLeft c
decreasing_by
  rw [turnsLeft_eq _h]
  exact Nat.lt_succ_self _

/-- Every agent that reaches `name` by links downwards. -/
def ancestors (t : Team σ) (name : String) : List String := t.climb (.start t name)

/-- The sub-agents of `name` that stand neither above it nor in its place. -/
def handoffTargets (t : Team σ) (name : String) : List (Agent σ) :=
  (t.children name).filter fun child => child.name ≠ name ∧ child.name ∉ t.ancestors name

/-- Every tool set of any agent, each instance once. -/
def toolsets (t : Team σ) : List (ToolSet σ) :=
  (t.agents.flatMap (·.toolsets)).foldl
    (fun acc set => if acc.any (·.key == set.key) then acc else acc ++ [set]) []

/-- Starts tool sets in order until one fails. -/
def startAll : List (ToolSet σ) → σ → Except Error Unit × σ
  | [], world => (.ok (), world)
  | set :: rest, world =>
    match set.start world with
    | (.ok (), world) => startAll rest world
    | (.error e, world) => (.error e, world)

def start (t : Team σ) (world : σ) : Except Error Unit × σ := startAll t.toolsets world

/-- Stops every tool set; one that fails to stop does not keep the others from it. -/
def stop (t : Team σ) (world : σ) : σ := t.toolsets.foldl (fun world set => (set.stop world).2) world

end Team

end Ensemble
