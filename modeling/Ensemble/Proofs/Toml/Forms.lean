import Ensemble.Config
import Ensemble.Proofs.Json.Records
import Ensemble.Proofs.Toml.Tables

/-!
# The forms of written files

A record of settings is written as a section with its plain fields (`Spells`) and a section below
it for each field that is a record itself (`Below`); together they make a table that has the form
of the record (`Makes`). A file of such tables, with a list of records behind them, is read as one
record (`Tables.reads`).
-/

namespace Ensemble.Toml

open Json

variable {fields more : List (String × Option Form)} {entries others : List (String × Entry)}

/-- Entries that the reader takes and whose values have these forms. -/
inductive Spells : List (String × Option Form) → List (String × Entry) → Prop where
  | nil : Spells [] []
  | written {form : Form} {e : Entry} {fields : List (String × Option Form)}
      {entries : List (String × Entry)} (name : String) (value : form e.json)
      (legible : e.Legible) (rest : Spells fields entries) :
      Spells ((name, some form) :: fields) ((name, e) :: entries)
  | left {fields : List (String × Option Form)} {entries : List (String × Entry)} (name : String)
      (rest : Spells fields entries) : Spells ((name, none) :: fields) entries

namespace Spells

theorem text (name s : String) (rest : Spells fields entries) :
    Spells ((name, some (exactly (.text s))) :: fields) ((name, .text s) :: entries) :=
  .written name rfl trivial rest

theorem bool (name : String) (b : Bool) (rest : Spells fields entries) :
    Spells ((name, some (exactly (.bool b))) :: fields) ((name, .bool b) :: entries) :=
  .written name rfl trivial rest

theorem texts (name : String) (items : List String) (rest : Spells fields entries) :
    Spells ((name, some (exactly (.texts items))) :: fields) ((name, .texts items) :: entries) :=
  .written name rfl trivial rest

theorem nat (name : String) {n : Nat} (fits : n ≤ maxWhole) (rest : Spells fields entries) :
    Spells ((name, some (exactly (.nat n))) :: fields) ((name, .nat n) :: entries) :=
  .written name rfl fits rest

theorem float (name : String) {x : Float} (back : readFloat? x = some x)
    (rest : Spells fields entries) :
    Spells ((name, some (exactly (.float x))) :: fields) ((name, .float x) :: entries) := by
  have value : exactly (.float x) (Entry.float x).json := by
    rw [Entry.json, back]
    rfl
  exact .written name value ⟨x, back⟩ rest

theorem append (h : Spells fields entries) (h' : Spells more others) :
    Spells (fields ++ more) (entries ++ others) := by
  induction h with
  | nil => exact h'
  | written name value legible _ ih => exact .written name value legible ih
  | left name _ ih => exact .left name ih

theorem whenSome {α : Type} (name : String) {each : α → Form} {f : α → Entry} {o : Option α}
    (h : ∀ a, o = some a → each a (f a).json ∧ (f a).Legible) :
    Spells [(name, o.map each)] (Config.entryWhenSome name f o) := by
  cases o with
  | none => exact .left name .nil
  | some a =>
    obtain ⟨value, legible⟩ := h a rfl
    exact .written name value legible .nil

theorem filled (h : Spells fields entries) :
    Filled fields (entries.map fun e => (e.1, e.2.json)) := by
  induction h with
  | nil => exact .nil
  | written name value _ _ ih => exact .written name value ih
  | left name _ ih => exact .left name ih

theorem legible (h : Spells fields entries) : ∀ e ∈ entries, e.2.Legible := by
  induction h with
  | nil => exact List.forall_mem_nil _
  | written _ _ legible _ ih => exact List.forall_mem_cons.mpr ⟨legible, ih⟩
  | left _ _ ih => exact ih

theorem distinct (h : Spells fields entries) (once : (fields.map Prod.fst).Nodup) :
    (entries.map Prod.fst).Nodup := by
  have names := h.filled.names.nodup once
  rw [List.map_map] at names
  exact names

end Spells

/-! ## Tables -/

/-- What sections must say to be read as part of a table. -/
structure Section.Plain (s : Section) (path : List String) : Prop where
  path : s.path = path
  listed : s.listed = false
  distinct : (s.entries.map Prod.fst).Nodup
  legible : ∀ e ∈ s.entries, e.2.Legible

/-- Sections below the one of this name, for fields with these forms. -/
inductive Below (name : String) : List (String × Option Form) → List Section → Prop where
  | nil : Below name [] []
  | table {form : Form} {fields : List (String × Option Form)} {s : Section}
      {subs : List Section} (key : String) (plain : s.Plain [name, key])
      (value : form (.object s.jsonMembers)) (rest : Below name fields subs) :
      Below name ((key, some form) :: fields) (s :: subs)
  | left {fields : List (String × Option Form)} {subs : List Section} (key : String)
      (rest : Below name fields subs) : Below name ((key, none) :: fields) subs

namespace Below

variable {name : String} {subs : List Section}

theorem record {s : Section} (key : String) (place : s.path = [name, key] ∧ s.listed = false)
    (spells : Spells more s.entries) (once : (more.map Prod.fst).Nodup)
    (rest : Below name fields subs) :
    Below name ((key, some (RecordOf more)) :: fields) (s :: subs) :=
  .table key ⟨place.1, place.2, spells.distinct once, spells.legible⟩ (.plain spells.filled) rest

theorem plain (h : Below name fields subs) : ∀ s ∈ subs, s.Plain [name, s.key] := by
  induction h with
  | nil => exact List.forall_mem_nil _
  | @table _ _ s _ key plain _ _ ih =>
    have same : s.key = key := by
      rw [Section.key, plain.path]
      rfl
    exact List.forall_mem_cons.mpr ⟨same ▸ plain, ih⟩
  | left _ _ ih => exact ih

theorem filled (h : Below name fields subs) :
    Filled fields (subs.map fun s => (s.key, .object s.jsonMembers)) := by
  induction h with
  | nil => exact .nil
  | @table _ _ s _ key plain value _ ih =>
    have same : s.key = key := by
      rw [Section.key, plain.path]
      rfl
    rw [List.map_cons, same]
    exact .written key value ih
  | left key _ ih => exact .left key ih

end Below

/-- The sections make a table of this name, with the fields as its members. -/
structure Makes (name : String) (fields : List (String × Option Form)) (sections : List Section) :
    Prop where
  group : ∃ g : Toml.Group, g.sections = sections ∧ g.name = name ∧ g.Sound ∧
    Filled fields g.jsonMembers
  legible : ∀ s ∈ sections, ∀ e ∈ s.entries, e.2.Legible

/-- The first `k` fields are entries of a section, the others sections below it. -/
theorem makes {name : String} {own : Section} {subs : List Section} (k : Nat)
    (once : (fields.map Prod.fst).Nodup) (place : own.path = [name] ∧ own.listed = false)
    (here : Spells (fields.take k) own.entries) (below : Below name (fields.drop k) subs) :
    Makes name fields (own :: subs) := by
  have filled : Filled fields (Toml.Group.mk name own subs).jsonMembers := by
    have both := here.filled.append below.filled
    rw [List.take_append_drop] at both
    exact both
  have distinct := filled.names.nodup once
  rw [Group.names_jsonMembers] at distinct
  have sound : (Toml.Group.mk name own subs).Sound :=
    ⟨place, fun s among => ⟨(below.plain s among).path, (below.plain s among).listed,
      (below.plain s among).distinct⟩, distinct⟩
  exact ⟨⟨⟨name, own, subs⟩, rfl, rfl, sound, filled⟩,
    List.forall_mem_cons.mpr ⟨here.legible, fun s among => (below.plain s among).legible⟩⟩

inductive Tables : List (String × Option Form) → List Section → Prop where
  | nil : Tables [] []
  | table {name : String} {fields forms : List (String × Option Form)}
      {sections rest : List Section} (h : Makes name fields sections)
      (later : Tables forms rest) :
      Tables ((name, some (RecordOf fields)) :: forms) (sections ++ rest)

namespace Tables

variable {forms : List (String × Option Form)} {sections : List Section}

theorem legible (h : Tables forms sections) : ∀ s ∈ sections, ∀ e ∈ s.entries, e.2.Legible := by
  induction h with
  | nil => exact List.forall_mem_nil _
  | table h _ ih => exact List.forall_mem_append.mpr ⟨h.legible, ih⟩

theorem groups (h : Tables forms sections) :
    ∃ groups : List Toml.Group, groups.flatMap Group.sections = sections ∧
      groups.map Group.name = forms.map Prod.fst ∧ (∀ g ∈ groups, g.Sound) ∧
      Filled forms (groups.map fun g => (g.name, .object g.jsonMembers)) := by
  induction h with
  | nil => exact ⟨[], rfl, rfl, List.forall_mem_nil _, .nil⟩
  | table h _ ih =>
    obtain ⟨g, rfl, rfl, sound, filled⟩ := h.group
    obtain ⟨groups, rfl, names, sounds, filledLater⟩ := ih
    refine ⟨g :: groups, rfl, ?_, List.forall_mem_cons.mpr ⟨sound, sounds⟩, ?_⟩
    · rw [List.map_cons, List.map_cons, names]
    · exact .written g.name (.plain filled) filledLater

/-- A file of tables, and then the listed sections of one name, is read as a record. -/
theorem reads {α : Type} (h : Tables forms sections) {name : String}
    (once : ((forms.map Prod.fst) ++ [name]).Nodup) {a : α} {as : List α} {each : α → Section}
    (listed : ∀ b, (each b).path = [name] ∧ (each b).listed = true)
    (fields : α → List (String × Option Form))
    (spells : ∀ b ∈ a :: as, Spells (fields b) (each b).entries ∧
      ((fields b).map Prod.fst).Nodup) :
    ∃ table v, Toml.read (render (sections ++ (a :: as).map each)) = some table ∧
      (Node.table .explicit table).toDoc = .ofJson v ∧
      RecordOf (forms ++ [(name, some (listOf ((a :: as).map fun b => RecordOf (fields b))))])
        v := by
  have legible := List.forall_mem_append.mpr ⟨h.legible, fun s among => by
    obtain ⟨b, inside, rfl⟩ := List.mem_map.mp (show s ∈ (a :: as).map each from among)
    exact (spells b inside).1.legible⟩
  have each_listed : ∀ s ∈ each a :: as.map each, s.path = [name] ∧ s.listed = true ∧
      (s.entries.map Prod.fst).Nodup := by
    intro s among
    obtain ⟨b, inside, rfl⟩ := List.mem_map.mp (show s ∈ (a :: as).map each from among)
    obtain ⟨spelled, once⟩ := spells b inside
    exact ⟨(listed b).1, (listed b).2, spelled.distinct once⟩
  obtain ⟨groups, rfl, names, sound, filled⟩ := h.groups
  rw [← names] at once
  obtain ⟨table, read, shown⟩ := read_groups sound once each_listed legible
  refine ⟨table, _, read, shown, .plain (filled.append (.written name ?_ .nil))⟩
  rw [← List.map_cons, List.map_map]
  exact listOf_map _ _ (a :: as) fun b inside => .plain (spells b inside).1.filled

end Tables

end Ensemble.Toml
