import Ensemble.Proofs.Toml.Statements

/-!
# Tables that are built from sections

Statements change the table opened last, wherever it stands in the table of the file. `At` is a
place for members in a table; headers and pairs add to what stands there. So a section adds one
member, with its entries (`takes_section`), the sections below it add to that member
(`Group.takes`), and listed sections of one name make a list of tables (`takes_list`). A file of
these is read as one object (`read_groups`).

Tables on the way to a header and dotted keys are not covered.
-/

namespace Ensemble.Toml

/-! ## Places -/

section Changes

variable {name : String} {before rest : Table}

theorem change_append (f : Option Node → Option Node) (fresh : name ∉ before.map Prod.fst) :
    change name f (before ++ rest) = (change name f rest).map (before ++ ·) := by
  induction before with
  | nil => simp
  | cons m before ih =>
    obtain ⟨other, n⟩ := m
    rw [List.map_cons, List.mem_cons, not_or] at fresh
    rw [List.cons_append, change, if_neg (Ne.symm fresh.1), ih fresh.2, Option.map_map]
    rfl

theorem change_last {n : Node} (f : Option Node → Option Node)
    (fresh : name ∉ before.map Prod.fst) :
    change name f (before ++ [(name, n)]) = (f (some n)).map fun n => before ++ [(name, n)] := by
  rw [change_append f fresh, change, if_pos rfl, Option.map_map]
  rfl

theorem change_fresh (f : Option Node → Option Node) (fresh : name ∉ before.map Prod.fst) :
    change name f before = (f none).map fun n => before ++ [(name, n)] := by
  have changed : change name f (before ++ []) = _ := change_append f fresh
  rw [List.append_nil] at changed
  rw [changed, change, Option.map_map]
  rfl

end Changes

theorem along_append (fresh : Kind) (enter : Kind → Bool) (f : Table → Option Table)
    (path more : List String) :
    along fresh enter f (path ++ more) = along fresh enter (along fresh enter f more) path := by
  induction path with
  | nil => rfl
  | cons name path ih =>
    funext t
    rw [List.cons_append, along, along, ih]

/-- A place for members at the end of a path, which headers can open: `plug ms` is the table with
the members `ms` there. -/
def At (path : List String) (plug : Table → Table) : Prop :=
  ∀ (f : Table → Option Table) (ms : Table),
    along .implicit openToHeaders f path (plug ms) = (f ms).map plug

theorem at_root : At [] id := by
  intro f ms
  cases h : f ms <;> simp [along, h]

section Places

variable {path : List String} {plug : Table → Table} {name : String} {before : Table}

theorem At.table (h : At path plug) (fresh : name ∉ before.map Prod.fst) :
    At (path ++ [name]) fun ms => plug (before ++ [(name, .table .explicit ms)]) := by
  intro f ms
  have enter : openToHeaders .explicit = true := rfl
  rw [along_append, h, along, change_last _ fresh]
  simp only [enter, if_true, along]
  cases f ms <;> rfl

theorem At.last (h : At path plug) (items : List Table) (fresh : name ∉ before.map Prod.fst) :
    At (path ++ [name]) fun ms => plug (before ++ [(name, .tables (items ++ [ms]))]) := by
  intro f ms
  rw [along_append, h, along, change_last _ fresh]
  simp only [changeLast, List.reverse_append, List.reverse_cons, List.reverse_nil, List.nil_append,
    List.cons_append, List.reverse_reverse, along]
  cases f ms <;> rfl

/-! ## Statements -/

theorem take_pair (h : At path plug) {ms : Table} (v : Node) (fresh : name ∉ ms.map Prod.fst) :
    Building.take ⟨plug ms, path⟩ (.pair [name] v) = some ⟨plug (ms ++ [(name, v)]), path⟩ := by
  have put : assign [name] v ms = some (ms ++ [(name, v)]) := by
    show change name _ ms = _
    rw [change_fresh _ fresh]
    rfl
  simp only [Building.take, h (assign [name] v), put]
  rfl

theorem take_header (h : At path plug) {ms : Table} (opened : List String)
    (fresh : name ∉ ms.map Prod.fst) :
    Building.take ⟨plug ms, opened⟩ (.header (path ++ [name])) =
      some ⟨plug (ms ++ [(name, .table .explicit [])]), path ++ [name]⟩ := by
  have opens : openTable name ms = some (ms ++ [(name, .table .explicit [])]) := by
    show change name _ ms = _
    rw [change_fresh _ fresh]
    rfl
  simp only [Building.take, List.getLast?_concat, List.dropLast_concat, h (openTable name), opens,
    Option.bind_eq_bind, Option.bind_some]
  rfl

def Section.members (s : Section) : Table := s.entries.map fun e => (e.1, e.2.node)

theorem takes_entries (h : At path plug) (entries : List (String × Entry)) {ms : Table}
    (distinct : (ms.map Prod.fst ++ entries.map Prod.fst).Nodup) :
    (entries.map fun e => Statement.pair [e.1] e.2.node).foldlM Building.take ⟨plug ms, path⟩ =
      some ⟨plug (ms ++ entries.map fun e => (e.1, e.2.node)), path⟩ := by
  induction entries generalizing ms with
  | nil => simp
  | cons e entries ih =>
    have fresh : e.1 ∉ ms.map Prod.fst := by
      intro among
      exact (List.nodup_append.mp distinct).2.2 _ among _ (.head _) rfl
    have later : ((ms ++ [(e.1, e.2.node)]).map Prod.fst ++ entries.map Prod.fst).Nodup := by
      simpa using distinct
    rw [List.map_cons, List.foldlM_cons, take_pair h _ fresh]
    simp only [Option.bind_eq_bind, Option.bind_some, ih later]
    simp

theorem takes_section (h : At path plug) {s : Section} (path_eq : s.path = path ++ [name])
    (plain : s.listed = false) {ms : Table} (opened : List String)
    (fresh : name ∉ ms.map Prod.fst) (distinct : (s.entries.map Prod.fst).Nodup) :
    s.statements.foldlM Building.take ⟨plug ms, opened⟩ =
      some ⟨plug (ms ++ [(name, .table .explicit s.members)]), s.path⟩ := by
  have header : s.header = .header (path ++ [name]) := by simp [Section.header, plain, path_eq]
  have none : (([] : Table).map Prod.fst ++ s.entries.map Prod.fst).Nodup := distinct
  have entries := takes_entries (h.table fresh) s.entries none
  rw [Section.statements, header, List.foldlM_cons, take_header h opened fresh]
  simp only [Option.bind_eq_bind, Option.bind_some]
  rw [path_eq]
  exact entries

end Places

/-- The key of a section in the table above it. -/
def Section.key (s : Section) : String := s.path.getLastD ""

def subtables (subs : List Section) : Table :=
  subs.map fun s => (s.key, .table .explicit s.members)

/-- A section of the file and the sections right below it. -/
structure Group where
  name : String
  own : Section
  subs : List Section

namespace Group

def sections (g : Group) : List Section := g.own :: g.subs

def members (g : Group) : Table := g.own.members ++ subtables g.subs

/-- The sections stand where the group says, and no name is there twice. -/
structure Sound (g : Group) : Prop where
  own : g.own.path = [g.name] ∧ g.own.listed = false
  subs : ∀ s ∈ g.subs, s.path = [g.name, s.key] ∧ s.listed = false ∧
    (s.entries.map Prod.fst).Nodup
  distinct : (g.own.entries.map Prod.fst ++ g.subs.map Section.key).Nodup

theorem takes_subs {name : String} {before : Table} (fresh : name ∉ before.map Prod.fst)
    (subs : List Section) (sound : ∀ s ∈ subs, s.path = [name, s.key] ∧ s.listed = false ∧
      (s.entries.map Prod.fst).Nodup) {ms : Table} (opened : List String)
    (distinct : (ms.map Prod.fst ++ subs.map Section.key).Nodup) :
    ∃ opened', (subs.flatMap Section.statements).foldlM Building.take
        ⟨before ++ [(name, .table .explicit ms)], opened⟩ =
      some ⟨before ++ [(name, .table .explicit (ms ++ subtables subs))], opened'⟩ := by
  induction subs generalizing ms opened with
  | nil => exact ⟨opened, by simp [subtables]⟩
  | cons s subs ih =>
    obtain ⟨path, plain, entries⟩ := sound s (.head _)
    have place : At [name] fun ms => before ++ [(name, .table .explicit ms)] := at_root.table fresh
    have new : s.key ∉ ms.map Prod.fst := by
      intro among
      exact (List.nodup_append.mp distinct).2.2 _ among _ (.head _) rfl
    have first := takes_section place path plain opened new entries
    have distinctLater : ((ms ++ [(s.key, Node.table .explicit s.members)]).map Prod.fst ++
        subs.map Section.key).Nodup := by
      simpa using distinct
    obtain ⟨opened', later⟩ := ih (fun t among => sound t (.tail _ among)) s.path distinctLater
    refine ⟨opened', ?_⟩
    rw [List.flatMap_cons, List.foldlM_append, first]
    simp only [Option.bind_eq_bind, Option.bind_some, later]
    simp [subtables]

theorem takes (g : Group) (sound : g.Sound) {before : Table} (opened : List String)
    (fresh : g.name ∉ before.map Prod.fst) :
    ∃ opened', (g.sections.flatMap Section.statements).foldlM Building.take ⟨before, opened⟩ =
      some ⟨before ++ [(g.name, .table .explicit g.members)], opened'⟩ := by
  have entries := (List.nodup_append.mp sound.distinct).1
  have first : g.own.statements.foldlM Building.take ⟨before, opened⟩ =
      some ⟨before ++ [(g.name, .table .explicit g.own.members)], g.own.path⟩ :=
    takes_section at_root sound.own.1 sound.own.2 opened fresh entries
  have distinct : (g.own.members.map Prod.fst ++ g.subs.map Section.key).Nodup := by
    simpa [Section.members, Function.comp_def] using sound.distinct
  obtain ⟨opened', later⟩ := takes_subs fresh g.subs sound.subs g.own.path distinct
  refine ⟨opened', ?_⟩
  rw [sections, List.flatMap_cons, List.foldlM_append, first]
  exact later

theorem takes_all (groups : List Group) (sound : ∀ g ∈ groups, g.Sound) {before : Table}
    (opened : List String) (distinct : (before.map Prod.fst ++ groups.map Group.name).Nodup) :
    ∃ opened', ((groups.flatMap sections).flatMap Section.statements).foldlM Building.take
        ⟨before, opened⟩ =
      some ⟨before ++ groups.map fun g => (g.name, .table .explicit g.members), opened'⟩ := by
  induction groups generalizing before opened with
  | nil => exact ⟨opened, by simp⟩
  | cons g groups ih =>
    have fresh : g.name ∉ before.map Prod.fst := by
      intro among
      exact (List.nodup_append.mp distinct).2.2 _ among _ (.head _) rfl
    have distinctLater : ((before ++ [(g.name, Node.table .explicit g.members)]).map Prod.fst ++
        groups.map Group.name).Nodup := by
      simpa using distinct
    obtain ⟨opened₁, first⟩ := g.takes (sound g (.head _)) opened fresh
    obtain ⟨opened₂, later⟩ := ih (fun t among => sound t (.tail _ among)) opened₁ distinctLater
    refine ⟨opened₂, ?_⟩
    rw [List.flatMap_cons, List.flatMap_append, List.foldlM_append, first]
    simp only [Option.bind_eq_bind, Option.bind_some, later]
    simp

theorem open_sections {g : Group} (sound : g.Sound) : ∀ s ∈ g.sections, s.Open := by
  intro s among
  rcases List.mem_cons.mp among with rfl | sub
  · have short : 1 < nestingLimit := by decide
    rw [Section.Open, sound.own.1]
    exact ⟨List.cons_ne_nil _ _, short⟩
  · have short : 2 < nestingLimit := by decide
    rw [Section.Open, (sound.subs s sub).1]
    exact ⟨List.cons_ne_nil _ _, short⟩

end Group

section Lists

variable {name : String} {before : Table}

theorem takes_listed (fresh : name ∉ before.map Prod.fst) {root : Table} {items : List Table}
    (opens : openNextTable name root = some (before ++ [(name, .tables (items ++ [[]]))]))
    {s : Section} (path_eq : s.path = [name]) (listed : s.listed = true)
    (distinct : (s.entries.map Prod.fst).Nodup) (opened : List String) :
    s.statements.foldlM Building.take ⟨root, opened⟩ =
      some ⟨before ++ [(name, .tables (items ++ [s.members]))], [name]⟩ := by
  have header : s.header = .nextHeader [name] := by simp [Section.header, listed, path_eq]
  have place : At [name] fun ms => before ++ [(name, .tables (items ++ [ms]))] :=
    at_root.last items fresh
  have none : (([] : Table).map Prod.fst ++ s.entries.map Prod.fst).Nodup := distinct
  have entries := takes_entries place s.entries none
  rw [Section.statements, header, List.foldlM_cons]
  simp only [Building.take, List.getLast?_singleton, List.dropLast_singleton, along, opens,
    Option.bind_eq_bind, Option.bind_some]
  exact entries

theorem takes_more (fresh : name ∉ before.map Prod.fst) (sections : List Section)
    (sound : ∀ s ∈ sections, s.path = [name] ∧ s.listed = true ∧ (s.entries.map Prod.fst).Nodup)
    (items : List Table) :
    (sections.flatMap Section.statements).foldlM Building.take
        ⟨before ++ [(name, .tables items)], [name]⟩ =
      some ⟨before ++ [(name, .tables (items ++ sections.map Section.members))], [name]⟩ := by
  induction sections generalizing items with
  | nil => simp
  | cons s sections ih =>
    obtain ⟨path, listed, distinct⟩ := sound s (.head _)
    have opens : openNextTable name (before ++ [(name, .tables items)]) =
        some (before ++ [(name, .tables (items ++ [[]]))]) := change_last _ fresh
    have first := takes_listed fresh opens path listed distinct [name]
    have later := ih (fun t among => sound t (.tail _ among)) (items ++ [s.members])
    rw [List.flatMap_cons, List.foldlM_append, first]
    simp only [Option.bind_eq_bind, Option.bind_some, later]
    simp

theorem takes_list (fresh : name ∉ before.map Prod.fst) (s : Section) (sections : List Section)
    (sound : ∀ t ∈ s :: sections, t.path = [name] ∧ t.listed = true ∧
      (t.entries.map Prod.fst).Nodup) (opened : List String) :
    ((s :: sections).flatMap Section.statements).foldlM Building.take ⟨before, opened⟩ =
      some ⟨before ++ [(name, .tables ((s :: sections).map Section.members))], [name]⟩ := by
  obtain ⟨path, listed, distinct⟩ := sound s (.head _)
  have opens : openNextTable name before = some (before ++ [(name, .tables ([] ++ [[]]))]) :=
    change_fresh _ fresh
  have first := takes_listed fresh opens path listed distinct opened
  have later := takes_more fresh sections (fun t among => sound t (.tail _ among)) [s.members]
  rw [List.flatMap_cons, List.foldlM_append, first]
  exact later

end Lists

/-! ## Documents -/

def Entry.json : Entry → Json
  | .text s => .text s
  | .nat n => .nat n
  | .float x => .float ((readFloat? x).getD x)
  | .bool b => .bool b
  | .texts items => .texts items

theorem toDoc_node (e : Entry) : e.node.toDoc = Json.Doc.ofJson e.json := by
  cases e with
  | texts items =>
    rw [Entry.node, Entry.json, Node.toDoc, Json.texts, Json.Doc.ofJson]
    congr 1
    induction items with
    | nil => rfl
    | cons s items ih => rw [List.map_cons, List.map_cons, nodeDocs, ih]; rfl
  | _ => rfl

def Section.jsonMembers (s : Section) : List (String × Json) :=
  s.entries.map fun e => (e.1, e.2.json)

def Group.jsonMembers (g : Group) : List (String × Json) :=
  g.own.jsonMembers ++ g.subs.map fun s => (s.key, .object s.jsonMembers)

theorem Group.names_jsonMembers (g : Group) : g.jsonMembers.map Prod.fst =
    g.own.entries.map Prod.fst ++ g.subs.map Section.key := by
  simp [Group.jsonMembers, Section.jsonMembers, Function.comp_def]

theorem memberDocs_append (t u : Table) : memberDocs (t ++ u) = memberDocs t ++ memberDocs u := by
  induction t with
  | nil => rfl
  | cons m t ih => rw [List.cons_append, memberDocs, memberDocs, ih, List.cons_append]

theorem ofMembers_append (members more : List (String × Json)) :
    Json.Doc.ofMembers (members ++ more) =
      Json.Doc.ofMembers members ++ Json.Doc.ofMembers more := by
  induction members with
  | nil => rfl
  | cons m members ih =>
    rw [List.cons_append, Json.Doc.ofMembers, Json.Doc.ofMembers, ih, List.cons_append]

theorem memberDocs_section (s : Section) :
    memberDocs s.members = Json.Doc.ofMembers s.jsonMembers := by
  unfold Section.members Section.jsonMembers
  induction s.entries with
  | nil => rfl
  | cons e entries ih =>
    rw [List.map_cons, List.map_cons, memberDocs, toDoc_node, ih, Json.Doc.ofMembers]

theorem memberDocs_map {α : Type} (key : α → String) (table : α → Table)
    (json : α → List (String × Json)) (as : List α)
    (h : ∀ a, memberDocs (table a) = Json.Doc.ofMembers (json a)) :
    memberDocs (as.map fun a => (key a, .table .explicit (table a))) =
      Json.Doc.ofMembers (as.map fun a => (key a, .object (json a))) := by
  induction as with
  | nil => rfl
  | cons a as ih =>
    rw [List.map_cons, List.map_cons, memberDocs, Node.toDoc, h, ih, Json.Doc.ofMembers,
      Json.Doc.ofJson]

theorem memberDocs_group (g : Group) :
    memberDocs g.members = Json.Doc.ofMembers g.jsonMembers := by
  rw [Group.members, Group.jsonMembers, memberDocs_append, ofMembers_append, memberDocs_section]
  exact congrArg _ (memberDocs_map Section.key _ _ g.subs memberDocs_section)

theorem tableDocs_sections (sections : List Section) :
    tableDocs (sections.map Section.members) =
      Json.Doc.ofItems (sections.map fun s => .object s.jsonMembers) := by
  induction sections with
  | nil => rfl
  | cons s sections ih =>
    rw [List.map_cons, List.map_cons, tableDocs, memberDocs_section, ih, Json.Doc.ofItems,
      Json.Doc.ofJson]

/-- A file of groups and then the listed sections of one name is read as the object of these. -/
theorem read_groups {groups : List Group} {name : String} {s : Section} {sections : List Section}
    (sound : ∀ g ∈ groups, g.Sound) (distinct : (groups.map Group.name ++ [name]).Nodup)
    (listed : ∀ t ∈ s :: sections, t.path = [name] ∧ t.listed = true ∧
      (t.entries.map Prod.fst).Nodup)
    (legible : ∀ t ∈ groups.flatMap Group.sections ++ s :: sections, ∀ e ∈ t.entries,
      e.2.Legible) :
    ∃ table, read (render (groups.flatMap Group.sections ++ s :: sections)) = some table ∧
      (Node.table .explicit table).toDoc = Json.Doc.ofJson (.object
        ((groups.map fun g => (g.name, .object g.jsonMembers)) ++
          [(name, .array ((s :: sections).map fun t => .object t.jsonMembers))])) := by
  have opens : ∀ t ∈ groups.flatMap Group.sections ++ s :: sections, t.Open := by
    intro t among
    rcases List.mem_append.mp among with inside | last
    · obtain ⟨g, group, section_⟩ := List.mem_flatMap.mp inside
      exact Group.open_sections (sound g group) t section_
    · have short : 1 < nestingLimit := by decide
      rw [Section.Open, (listed t last).1]
      exact ⟨List.cons_ne_nil _ _, short⟩
  have fresh : name ∉ (groups.map fun g => (g.name, Node.table .explicit g.members)).map
      Prod.fst := by
    have apart := (List.nodup_append.mp distinct).2.2
    rw [List.map_map]
    exact fun among => apart name among name (.head _) rfl
  have names : ((([] : Table).map Prod.fst) ++ groups.map Group.name).Nodup :=
    (List.nodup_append.mp distinct).1
  obtain ⟨opened, tables⟩ := Group.takes_all groups sound [] names
  rw [List.nil_append] at tables
  have list := takes_list fresh s sections listed opened
  have built : ((groups.flatMap Group.sections ++ s :: sections).flatMap
      Section.statements).foldlM Building.take {} = some
        ⟨(groups.map fun g => (g.name, Node.table .explicit g.members)) ++
          [(name, .tables ((s :: sections).map Section.members))], [name]⟩ := by
    rw [List.flatMap_append, List.foldlM_append, tables]
    exact list
  refine ⟨_, by rw [read_render opens legible, built]; rfl, ?_⟩
  rw [Node.toDoc, Json.Doc.ofJson, memberDocs_append, ofMembers_append,
    memberDocs_map Group.name _ _ groups memberDocs_group]
  have last := tableDocs_sections (s :: sections)
  rw [memberDocs, Node.toDoc, last]
  rfl

end Ensemble.Toml
