import Mathlib.Data.List.Forall2
import Ensemble.Proofs.Agent.Targets
import Ensemble.Proofs.Config

/-!
# Teams from settings

Settings make a team just when they are `Config.WellFormed`. The team then mirrors its entries
(`Team.Mirrors`): all that is looked up in it is read off them, and nothing that an entry names is
missing. Tool sets are made when they are asked for first and kept under their names
(`Config.Works`), so agents that name the same one share an instance (`Config.team_mirrors`).
-/

namespace Ensemble

variable {σ : Type}

namespace Team

variable {t : Team σ} {agents : List (Agent σ)}

/-! ## Building -/

theorem build_eq_ok_iff :
    build agents = .ok t ↔ t.agents = agents ∧ agents.head? = some t.root := by
  constructor
  · intro h
    unfold build at h
    split at h
    · cases h
    dsimp only at h
    split at h
    · split at h
      · cases h
        exact ⟨rfl, rfl⟩
      · cases h
    · cases h
  · rintro ⟨rfl, first⟩
    obtain ⟨agents, root, distinct, known, among⟩ := t
    cases agents with
    | nil => cases first
    | cons root' rest =>
      obtain rfl : root' = root := Option.some.inj first
      unfold build
      dsimp only
      rw [dif_pos distinct, dif_pos known]

/-- What a list of agents needs to make a team. -/
structure Sound (agents : List (Agent σ)) : Prop where
  nonempty : agents ≠ []
  distinct : (agents.map (·.name)).Nodup
  known : ∀ a ∈ agents, ∀ child ∈ a.subAgents, child ∈ agents.map (·.name)

theorem exists_build (h : Sound agents) : ∃ t, build agents = .ok t := by
  obtain ⟨root, rest, rfl⟩ := List.exists_cons_of_ne_nil h.nonempty
  exact ⟨⟨root :: rest, root, h.distinct, h.known, .head _⟩, build_eq_ok_iff.mpr ⟨rfl, rfl⟩⟩

theorem sound_of_build (h : build agents = .ok t) : Sound agents := by
  obtain ⟨rfl, first⟩ := build_eq_ok_iff.mp h
  refine ⟨?_, t.distinct, t.known⟩
  intro empty
  rw [empty] at first
  cases first

theorem build_error {e : Error} (h : build agents = .error e) : ∃ text, e = .config text := by
  unfold build at h
  split at h
  · cases h
    exact ⟨_, rfl⟩
  dsimp only at h
  split at h
  · split at h
    · cases h
    · cases h
      exact ⟨_, rfl⟩
  · cases h
    exact ⟨_, rfl⟩

/-! ## Looking up -/

theorem get?_of_mem {a : Agent σ} (among : a ∈ t.agents) : t.get? a.name = some a := by
  cases found : t.get? a.name with
  | none =>
    have missing := List.find?_eq_none.mp found a among
    exact absurd (beq_self_eq_true a.name) missing
  | some b =>
    have same := List.inj_on_of_nodup_map t.distinct (List.mem_of_find?_eq_some found) among
      (name_of_get? found)
    rw [same]

theorem get?_eq_none {name : String} (unknown : name ∉ t.names) : t.get? name = none := by
  apply List.find?_eq_none.mpr
  intro a among same
  exact unknown (List.mem_map.mpr ⟨a, among, beq_iff_eq.mp same⟩)

theorem children_found {a : Agent σ} (among : a ∈ t.agents) :
    (t.children a.name).map some = a.subAgents.map t.get? := by
  have each (names : List String) (known : ∀ child ∈ names, child ∈ t.names) :
      (names.filterMap t.get?).map some = names.map t.get? := by
    induction names with
    | nil => rfl
    | cons child rest ih =>
      obtain ⟨b, there, rfl⟩ := List.mem_map.mp (known child (.head _))
      have rest := ih fun other later => known other (.tail _ later)
      rw [List.filterMap_cons, get?_of_mem there, List.map_cons, List.map_cons, rest,
        get?_of_mem there]
  rw [children, get?_of_mem among]
  exact each a.subAgents (t.known a among)

theorem withRoot_of_get? {a : Agent σ} {name : String} (found : t.get? name = some a) :
    ∃ t', t.withRoot name = .ok t' ∧ t'.agents = t.agents ∧ t'.root = a := by
  unfold withRoot
  split
  · rename_i b there
    cases found.symm.trans there
    exact ⟨_, rfl, rfl, rfl⟩
  · rename_i missing
    cases found.symm.trans missing

theorem withRoot_of_none {name : String} (missing : t.get? name = none) :
    t.withRoot name = .error (.agentNotFound name) := by
  unfold withRoot
  split
  · rename_i b there
    cases missing.symm.trans there
  · rfl

/-- A team that was made of entries: `made` tells the agent of an entry. -/
structure Mirrors (t : Team σ) (entries : List Config.Agent) (made : Config.Agent → Agent σ) :
    Prop where
  root : entries.head?.map made = some t.root
  get? : ∀ a ∈ entries, t.get? a.name = some (made a)
  get?_other : ∀ name, name ∉ entries.map (·.name) → t.get? name = none
  children : ∀ a ∈ entries, (t.children a.name).map some = a.subAgents.map t.get?
  children_other : ∀ name, name ∉ entries.map (·.name) → t.children name = []
  parents : ∀ name, t.parents name = (entries.filter fun a => name ∈ a.subAgents).map (·.name)
  withRoot : ∀ a ∈ entries, ∃ t', t.withRoot a.name = .ok t' ∧ t'.agents = t.agents ∧
    t'.root = made a
  withRoot_other : ∀ name, name ∉ entries.map (·.name) →
    t.withRoot name = .error (.agentNotFound name)

theorem mirrors_of_build {entries : List Config.Agent} {made : Config.Agent → Agent σ}
    (name : ∀ a, (made a).name = a.name) (subAgents : ∀ a, (made a).subAgents = a.subAgents)
    (h : build (entries.map made) = .ok t) : t.Mirrors entries made := by
  obtain ⟨agents, first⟩ := build_eq_ok_iff.mp h
  have among {a : Config.Agent} (entry : a ∈ entries) : made a ∈ t.agents := by
    rw [agents]
    exact List.mem_map_of_mem entry
  have names : t.names = entries.map (·.name) := by
    rw [Team.names, agents, List.map_map]
    exact List.map_congr_left fun a _ => name a
  have found {a : Config.Agent} (entry : a ∈ entries) : t.get? a.name = some (made a) := by
    rw [← name a]
    exact get?_of_mem (among entry)
  have lost {n : String} (unknown : n ∉ entries.map (·.name)) : t.get? n = none := by
    rw [← names] at unknown
    exact get?_eq_none unknown
  refine ⟨?_, fun _ => found, fun _ => lost, ?_, ?_, ?_, ?_, ?_⟩
  · rwa [List.head?_map] at first
  · intro a entry
    have children := children_found (among entry)
    rwa [name, subAgents] at children
  · intro n unknown
    rw [Team.children, lost unknown]
  · intro n
    rw [parents, agents, List.filter_map, List.map_map]
    simp only [Function.comp_def, subAgents, name]
  · intro a entry
    exact withRoot_of_get? (found entry)
  · intro n unknown
    exact withRoot_of_none (lost unknown)

end Team

namespace Config

/-! ## Tool sets -/

def Known (name : String) : Prop := name = "shell"

instance (name : String) : Decidable (Known name) := inferInstanceAs (Decidable (name = "shell"))

abbrev Held (σ : Type) := List (String × ToolSet σ)

def Genuine (shell : ToolSet σ) (held : Held σ) : Prop :=
  ∀ e ∈ held, Known e.1 ∧ ∃ number, e.2 = instanceOf shell number

/-- Work that succeeds just when `able` holds, and otherwise fails as settings do. It takes nothing
away of what was made, and what it gives is related to that by `gives`. -/
structure Works {α : Type} (shell : ToolSet σ) (work : Outfitting σ α) (able : Prop)
    (gives : α → Held σ → Prop) : Prop where
  succeeds : ∀ held, Genuine shell held → able → ∃ a held', work.run held = .ok (a, held') ∧
    held <+: held' ∧ Genuine shell held' ∧ gives a held'
  fails : ∀ held, Genuine shell held → ¬ able → ∃ text, work.run held = .error (.config text)

variable {shell : ToolSet σ} {held held' : Held σ}

theorem lookup_of_prefix {name : String} {there : ToolSet σ} (grows : held <+: held')
    (found : held.lookup name = some there) : held'.lookup name = some there := by
  obtain ⟨more, rfl⟩ := grows
  rw [List.lookup_append, found]
  rfl

theorem Genuine.of_lookup (h : Genuine shell held) {name : String} {there : ToolSet σ}
    (found : held.lookup name = some there) :
    Known name ∧ ∃ number, there = instanceOf shell number := by
  obtain ⟨before, behind, rfl, -⟩ := List.lookup_eq_some_iff.mp found
  exact h (name, there) (List.mem_append_right _ (.head _))

theorem Genuine.concat (h : Genuine shell held) {name : String} (known : Known name)
    (number : Nat) : Genuine shell (held ++ [(name, instanceOf shell number)]) := by
  intro e among
  rcases List.mem_append.mp among with old | new
  · exact h e old
  · cases List.mem_singleton.mp new
    exact ⟨known, number, rfl⟩

theorem takeToolset_works (shell : ToolSet σ) (name : String) :
    Works shell (takeToolset shell name) (Known name) fun there held =>
      held.lookup name = some there := by
  have there {held : Held σ} {set : ToolSet σ} (found : held.lookup name = some set) :
      (takeToolset shell name).run held = .ok (set, held) := by
    simp only [takeToolset, StateT.run_bind, StateT.run_get, pure_bind, found]
    rfl
  have made {held : Held σ} (missing : held.lookup name = none) :
      (takeToolset shell name).run held =
        (toolset (instanceOf shell held.length) name).map fun made =>
          (made, held ++ [(name, made)]) := by
    simp only [takeToolset, StateT.run_bind, StateT.run_get, pure_bind, missing]
    cases toolset (instanceOf shell held.length) name <;> rfl
  constructor
  · intro held genuine known
    cases found : held.lookup name with
    | some set => exact ⟨set, held, there found, List.prefix_refl _, genuine, found⟩
    | none =>
      refine ⟨instanceOf shell held.length, _, ?_, List.prefix_append _ _,
        genuine.concat known held.length, ?_⟩
      · rw [made found, toolset, if_pos (show name = "shell" from known)]
        rfl
      · rw [List.lookup_append, found]
        simp
  · intro held genuine unknown
    cases found : held.lookup name with
    | some set => exact absurd (genuine.of_lookup found).1 unknown
    | none =>
      rw [made found, toolset, if_neg (show ¬ name = "shell" from unknown)]
      exact ⟨_, rfl⟩

namespace Works

variable {α β : Type}

theorem run_mapM_cons (work : α → Outfitting σ β) (a : α) (as : List α) (held : Held σ) :
    ((a :: as).mapM work).run held = (work a).run held >>= fun first =>
      (as.mapM work).run first.2 >>= fun rest => .ok (first.1 :: rest.1, rest.2) := by
  rw [List.mapM_cons, StateT.run_bind]
  rfl

/-- A list is worked through when each of its elements can be. What an element gives has to last
while more is made. -/
theorem mapM {work : α → Outfitting σ β} {able : α → Prop} {gives : α → β → Held σ → Prop}
    (each : ∀ a, Works shell (work a) (able a) (gives a))
    (lasts : ∀ a b held held', held <+: held' → gives a b held → gives a b held') (as : List α) :
    Works shell (as.mapM work) (∀ a ∈ as, able a) fun bs held =>
      List.Forall₂ (fun a b => gives a b held) as bs := by
  induction as with
  | nil =>
    refine ⟨fun held genuine _ => ⟨[], held, rfl, List.prefix_refl _, genuine, .nil⟩, ?_⟩
    intro held _ unable
    exact absurd (List.forall_mem_nil able) unable
  | cons a as ih =>
    constructor
    · intro held genuine able
      obtain ⟨b, held₁, first, grows₁, genuine₁, given⟩ :=
        (each a).succeeds held genuine (able a (.head _))
      obtain ⟨bs, held₂, rest, grows₂, genuine₂, givens⟩ :=
        ih.succeeds held₁ genuine₁ fun a' later => able a' (.tail _ later)
      refine ⟨b :: bs, held₂, ?_, grows₁.trans grows₂, genuine₂,
        .cons (lasts a b held₁ held₂ grows₂ given) givens⟩
      rw [run_mapM_cons, first]
      change ((as.mapM work).run held₁ >>= _) = _
      rw [rest]
      rfl
    · -- What fails is the first element that cannot be worked through.
      intro held genuine unable
      rw [run_mapM_cons]
      by_cases first : able a
      · obtain ⟨b, held₁, first, -, genuine₁, -⟩ := (each a).succeeds held genuine first
        have later : ¬ ∀ a ∈ as, able a := fun later =>
          unable (List.forall_mem_cons.mpr ⟨‹able a›, later⟩)
        obtain ⟨text, failed⟩ := ih.fails held₁ genuine₁ later
        refine ⟨text, ?_⟩
        rw [first]
        change ((as.mapM work).run held₁ >>= _) = _
        rw [failed]
        rfl
      · obtain ⟨text, failed⟩ := (each a).fails held genuine first
        rw [failed]
        exact ⟨text, rfl⟩

theorem map {work : Outfitting σ α} {able : Prop} {gives : α → Held σ → Prop}
    (h : Works shell work able gives) (f : α → β) :
    Works shell (f <$> work) able fun b held => ∃ a, gives a held ∧ b = f a := by
  constructor
  · intro held genuine can
    obtain ⟨a, held', done, grows, genuine', given⟩ := h.succeeds held genuine can
    refine ⟨f a, held', ?_, grows, genuine', a, given, rfl⟩
    rw [StateT.run_map, done]
    rfl
  · intro held genuine cannot
    obtain ⟨text, failed⟩ := h.fails held genuine cannot
    refine ⟨text, ?_⟩
    rw [StateT.run_map, failed]
    rfl

end Works

theorem build_works (a : Agent) (model : Model σ) (shell : ToolSet σ) :
    Works shell (a.build model shell) (∀ name ∈ a.toolsets, Known name) fun b held =>
      ∃ sets, List.Forall₂ (fun name there => held.lookup name = some there) a.toolsets sets ∧
        b = a.equipped model sets := by
  have sets := Works.mapM (takeToolset_works shell)
    (fun _ _ _ _ grows found => lookup_of_prefix grows found) a.toolsets
  have build : a.build model shell =
      a.equipped model <$> a.toolsets.mapM (takeToolset shell) := by
    rw [map_eq_pure_bind]
    rfl
  rw [build]
  exact sets.map _

/-! ## The team -/

structure WellFormed (entries : List Agent) : Prop where
  known : ∀ a ∈ entries, ∀ name ∈ a.toolsets, Known name
  distinct : (entries.map (·.name)).Nodup
  links : ∀ a ∈ entries, ∀ child ∈ a.subAgents, child ∈ entries.map (·.name)

def heldBy (shell : ToolSet σ) (held : Held σ) (name : String) : ToolSet σ :=
  (held.lookup name).getD shell

theorem heldBy_genuine (genuine : Genuine shell held) (name : String) :
    ∃ number, heldBy shell held name = instanceOf shell number := by
  unfold heldBy
  cases found : held.lookup name with
  | none => exact ⟨0, rfl⟩
  | some there => exact (genuine.of_lookup found).2

theorem sets_of_lookup {names : List String} {sets : List (ToolSet σ)}
    (h : List.Forall₂ (fun name there => held.lookup name = some there) names sets) :
    sets = names.map (heldBy shell held) := by
  induction h with
  | nil => rfl
  | cons found _ ih => rw [List.map_cons, heldBy, found, ← ih, Option.getD_some]

theorem agents_of_lookup {model : Model σ} {entries : List Agent} {agents : List (Ensemble.Agent σ)}
    (h : List.Forall₂ (fun a b => ∃ sets,
      List.Forall₂ (fun name there => held.lookup name = some there) a.toolsets sets ∧
        b = a.equipped model sets) entries agents) :
    agents = entries.map fun a => a.equipped model (a.toolsets.map (heldBy shell held)) := by
  induction h with
  | nil => rfl
  | cons first _ ih =>
    obtain ⟨sets, found, rfl⟩ := first
    rw [List.map_cons, ← ih, sets_of_lookup found]

theorem agents_work (entries : List Agent) (model : Model σ) (shell : ToolSet σ) :
    Works shell (entries.mapM fun a : Agent => a.build model shell)
      (∀ a ∈ entries, ∀ name ∈ a.toolsets, Known name) fun agents held =>
        agents = entries.map fun a => a.equipped model (a.toolsets.map (heldBy shell held)) := by
  have each := Works.mapM (fun a : Agent => build_works a model shell) ?_ entries
  · constructor
    · intro held genuine known
      obtain ⟨agents, held', run, grows, genuine', given⟩ := each.succeeds held genuine known
      exact ⟨agents, held', run, grows, genuine', agents_of_lookup given⟩
    · exact each.fails
  · rintro a b held held' grows ⟨sets, found, rfl⟩
    exact ⟨sets, found.imp fun _ _ => lookup_of_prefix grows, rfl⟩

theorem genuine_nil (shell : ToolSet σ) : Genuine shell [] := List.forall_mem_nil _

variable (c : Config) (model : Model σ) (shell : ToolSet σ)

/-- With names of tool sets there are, the team is built of agents that hold the same instances. -/
theorem team_of_known (known : ∀ a ∈ c.agentsOrDefault, ∀ name ∈ a.toolsets, Known name) :
    ∃ held : Held σ, Genuine shell held ∧ c.team model shell = Team.build
      (c.agentsOrDefault.map fun a => a.equipped model (a.toolsets.map (heldBy shell held))) := by
  obtain ⟨agents, held, run, -, genuine, rfl⟩ :=
    (agents_work c.agentsOrDefault model shell).succeeds [] (genuine_nil shell) known
  refine ⟨held, genuine, ?_⟩
  rw [team, StateT.run'_eq, run]
  rfl

theorem team_of_unknown (unknown : ¬ ∀ a ∈ c.agentsOrDefault, ∀ name ∈ a.toolsets, Known name) :
    ∃ text, c.team model shell = .error (.config text) := by
  obtain ⟨text, failed⟩ :=
    (agents_work c.agentsOrDefault model shell).fails [] (genuine_nil shell) unknown
  refine ⟨text, ?_⟩
  rw [team, StateT.run'_eq, failed]
  rfl

theorem sound_iff {entries : List Agent} (nonempty : entries ≠ [])
    (sets : Agent → List (ToolSet σ)) :
    Team.Sound (entries.map fun a => a.equipped model (sets a)) ↔
      (entries.map (·.name)).Nodup ∧
        ∀ a ∈ entries, ∀ child ∈ a.subAgents, child ∈ entries.map (·.name) := by
  have names : (entries.map fun a => a.equipped model (sets a)).map (·.name) =
      entries.map (·.name) := by
    rw [List.map_map]
    rfl
  constructor
  · rintro ⟨-, distinct, known⟩
    rw [names] at distinct known
    exact ⟨distinct, fun a entry => known _ (List.mem_map_of_mem entry)⟩
  · rintro ⟨distinct, links⟩
    rw [← names] at distinct links
    refine ⟨fun empty => nonempty (List.map_eq_nil_iff.mp empty), distinct, ?_⟩
    intro b among
    obtain ⟨a, entry, rfl⟩ := List.mem_map.mp among
    exact links a entry

theorem exists_team (h : WellFormed c.agentsOrDefault) : ∃ t, c.team model shell = .ok t := by
  obtain ⟨held, -, team⟩ := c.team_of_known model shell h.known
  rw [team]
  apply Team.exists_build
  exact (sound_iff model (agentsOrDefault_ne_nil c) _).mpr ⟨h.distinct, h.links⟩

theorem team_refused (h : ¬ WellFormed c.agentsOrDefault) :
    ∃ text, c.team model shell = .error (.config text) := by
  by_cases known : ∀ a ∈ c.agentsOrDefault, ∀ name ∈ a.toolsets, Known name
  · obtain ⟨held, -, team⟩ := c.team_of_known model shell known
    cases built : c.team model shell with
    | error e =>
      obtain ⟨text, rfl⟩ := Team.build_error (team.symm.trans built)
      exact ⟨text, rfl⟩
    | ok t =>
      have sound := Team.sound_of_build (team.symm.trans built)
      obtain ⟨distinct, links⟩ := (sound_iff model (agentsOrDefault_ne_nil c) _).mp sound
      exact absurd ⟨known, distinct, links⟩ h
  · exact c.team_of_unknown model shell known

/-- Settings make a team just when they are well-formed, and otherwise there is something wrong with
the settings. The team mirrors the entries, and agents that name the same tool set hold the same
instance. -/
theorem team_mirrors (c : Config) (model : Model σ) (directory : String)
    (shell : Ensemble.Shell.Config → ToolSet σ) :
    let tools := shell (c.shellConfig directory)
    let entries := c.agentsOrDefault
    ((∃ t, c.team model tools = .ok t) ↔ WellFormed entries) ∧
    (¬ WellFormed entries → ∃ text, c.team model tools = .error (.config text)) ∧
    ∀ t, c.team model tools = .ok t → ∃ held : String → ToolSet σ,
      (∀ name, ∃ number, held name = instanceOf tools number) ∧
      t.Mirrors entries fun a => a.equipped model (a.toolsets.map held) := by
  intro tools entries
  have wellFormed {t : Team σ} (built : c.team model tools = .ok t) : WellFormed entries := by
    by_contra malformed
    obtain ⟨text, refused⟩ := c.team_refused model tools malformed
    rw [refused] at built
    cases built
  refine ⟨⟨fun ⟨t, built⟩ => wellFormed built, c.exists_team model tools⟩,
    c.team_refused model tools, ?_⟩
  intro t built
  obtain ⟨held, genuine, team⟩ := c.team_of_known model tools (wellFormed built).known
  refine ⟨heldBy tools held, heldBy_genuine genuine, ?_⟩
  exact Team.mirrors_of_build (fun _ => rfl) (fun _ => rfl) (team.symm.trans built)

/-! ## A sample

Two agents with one shell, each of which lists the other. -/

namespace Sample

def plainModel : Model Unit where
  name := "none"
  model := "none"
  options := {}
  pricing := none
  complete _ _ world := (.ok [], world)

def plainShell (shell : Ensemble.Shell.Config) : ToolSet Unit :=
  { key := 0, instructions := some shell.workingDirectory, tools := [] }

def couple : Config where
  agents := [{ name := "a", subAgents := ["b"] }, { name := "b", subAgents := ["a", "a"] }]

def stranger : Config where
  agents := [{ toolsets := ["shell", "browser"] }]

theorem couple_wellFormed : WellFormed couple.agentsOrDefault where
  known := by decide +kernel
  distinct := by decide +kernel
  links := by decide +kernel

theorem stranger_malformed : ¬ WellFormed stranger.agentsOrDefault := by
  intro h
  have known : "browser" = "shell" := h.known _ (.head _) _ (.tail _ (.head _))
  exact absurd known (by decide)

end Sample

theorem team_mirrors_sample :
    let tools := Sample.plainShell (Sample.couple.shellConfig "/work")
    (∃ t set, Sample.couple.team Sample.plainModel tools = .ok t ∧ t.root.name = "a" ∧
      (t.children "b").map some = [t.get? "a", t.get? "a"] ∧
      (t.get? "a").map (·.toolsets) = some [set] ∧ (t.get? "b").map (·.toolsets) = some [set]) ∧
    ∃ text, Sample.stranger.team Sample.plainModel tools = .error (.config text) := by
  intro tools
  obtain ⟨built, -, mirrors⟩ :=
    team_mirrors Sample.couple Sample.plainModel "/work" Sample.plainShell
  obtain ⟨t, team⟩ := built.mpr Sample.couple_wellFormed
  obtain ⟨held, -, h⟩ := mirrors t team
  have first := h.get? _ (.head _)
  have second := h.get? _ (.tail _ (.head _))
  have root : some "a" = some t.root.name := congrArg (Option.map Ensemble.Agent.name) h.root
  refine ⟨⟨t, held "shell", team, ?_, ?_, ?_, ?_⟩, ?_⟩
  · exact (Option.some.inj root).symm
  · exact h.children _ (.tail _ (.head _))
  · exact congrArg (Option.map (·.toolsets)) first
  · exact congrArg (Option.map (·.toolsets)) second
  · obtain ⟨-, refused, -⟩ :=
      team_mirrors Sample.stranger Sample.plainModel "/work" Sample.plainShell
    exact refused Sample.stranger_malformed

end Config

end Ensemble
