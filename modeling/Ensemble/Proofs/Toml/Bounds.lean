import Ensemble.Proofs.Json.Bounds
import Ensemble.Proofs.Toml.Statements

/-!
# Numbers in settings files

The reader takes no whole number above `maxWhole`, and statements only move values into tables. So
the document of a table that was read is within this limit (`within_of_read`).

Numbers below zero have no limit here.
-/

namespace Ensemble.Toml

/-- No whole number in it is above what the reader takes. -/
inductive Node.Bounded : Node → Prop where
  | text (s : String) : Bounded (.text s)
  | whole {n : Int} (le : n ≤ maxWhole) : Bounded (.whole n)
  | float (x : Float) : Bounded (.float x)
  | bool (b : Bool) : Bounded (.bool b)
  | moment (s : String) : Bounded (.moment s)
  | array {items : List Node} (each : ∀ n ∈ items, Bounded n) : Bounded (.array items)
  | table (kind : Kind) {members : List (String × Node)} (each : ∀ m ∈ members, Bounded m.2) :
      Bounded (.table kind members)
  | tables {items : List (List (String × Node))} (each : ∀ t ∈ items, ∀ m ∈ t, Bounded m.2) :
      Bounded (.tables items)

def Table.Bounded (t : Table) : Prop := ∀ m ∈ t, m.2.Bounded

theorem Table.Bounded.nil : Table.Bounded [] := List.forall_mem_nil _

theorem Table.Bounded.cons {name : String} {n : Node} {t : Table} (h : n.Bounded)
    (rest : Table.Bounded t) : Table.Bounded ((name, n) :: t) := List.forall_mem_cons.mpr ⟨h, rest⟩

/-! ## Values -/

theorem signedWhole?_le {negative : Bool} {m : Nat} {n : Int}
    (h : signedWhole? negative m = some n) : n ≤ maxWhole := by
  unfold signedWhole? at h
  unfold maxWhole
  split at h
  · split at h
    · cases h
      omega
    · cases h
  split at h
  · cases h
    omega
  · cases h

theorem inBase?_le {base : Nat} {cs : List Char} {n : Int} (h : inBase? base cs = some n) :
    n ≤ maxWhole := by
  obtain ⟨ds, -, h⟩ := Option.bind_eq_some_iff.mp h
  exact signedWhole?_le h

theorem whole?_le {cs : List Char} {n : Int} (h : whole? cs = some n) : n ≤ maxWhole := by
  unfold whole? at h
  split at h
  · exact inBase?_le h
  · exact inBase?_le h
  · exact inBase?_le h
  · obtain ⟨ds, -, h⟩ := Option.bind_eq_some_iff.mp h
    exact signedWhole?_le h

theorem word?_bounded {cs : List Char} {n : Node} (h : word? cs = some n) : n.Bounded := by
  unfold word? at h
  split at h
  · cases h
    exact .bool _
  split at h
  · cases h
    exact .bool _
  split at h
  · cases h
    exact .moment _
  split at h
  · rename_i whole
    cases h
    exact .whole (whole?_le whole)
  · obtain ⟨x, -, rfl⟩ := Option.map_eq_some_iff.mp h
    exact .float x

theorem readWord_bounded {cs r : List Char} {n : Node} (h : readWord cs = some (n, r)) :
    n.Bounded := by
  unfold readWord at h
  dsimp only at h
  split at h
  · cases h
    exact .moment _
  · obtain ⟨v, word, same⟩ := Option.map_eq_some_iff.mp h
    cases same
    exact word?_bounded word

section Containers

variable {value : ValueReader} (each : ∀ cs v r, value cs = some (v, r) → v.Bounded)

include each

theorem readItems_bounded (fuel : Nat) {cs r : List Char} {vs : List Node}
    (h : readItems value fuel cs = some (vs, r)) : ∀ v ∈ vs, v.Bounded := by
  induction fuel generalizing cs vs r with
  | zero => cases h
  | succ fuel ih =>
    rw [readItems] at h
    split at h
    · cases h
      exact List.forall_mem_nil _
    · obtain ⟨⟨v, behind⟩, first, h⟩ := Option.bind_eq_some_iff.mp h
      dsimp only at h
      split at h
      · obtain ⟨⟨vs, behind⟩, later, h⟩ := Option.bind_eq_some_iff.mp h
        cases h
        exact List.forall_mem_cons.mpr ⟨each _ _ _ first, ih later⟩
      · cases h
        exact List.forall_mem_cons.mpr ⟨each _ _ _ first, List.forall_mem_nil _⟩
      · cases h

theorem readPair_bounded {cs r : List Char} {p : List String × Node}
    (h : readPair value cs = some (p, r)) : p.2.Bounded := by
  obtain ⟨⟨path, behind⟩, -, h⟩ := Option.bind_eq_some_iff.mp h
  dsimp only at h
  split at h
  · obtain ⟨⟨v, behind⟩, read, h⟩ := Option.bind_eq_some_iff.mp h
    cases h
    exact each _ _ _ read
  · cases h

theorem readPairs_bounded (fuel : Nat) {cs r : List Char} {ps : List (List String × Node)}
    (h : readPairs value fuel cs = some (ps, r)) : ∀ p ∈ ps, p.2.Bounded := by
  induction fuel generalizing cs ps r with
  | zero => cases h
  | succ fuel ih =>
    obtain ⟨⟨p, behind⟩, first, h⟩ := Option.bind_eq_some_iff.mp h
    dsimp only at h
    split at h
    · obtain ⟨⟨ps, behind⟩, later, h⟩ := Option.bind_eq_some_iff.mp h
      cases h
      exact List.forall_mem_cons.mpr ⟨readPair_bounded each first, ih later⟩
    · cases h
      exact List.forall_mem_cons.mpr ⟨readPair_bounded each first, List.forall_mem_nil _⟩
    · cases h

end Containers

/-! ## Tables -/

def Keeps (f : Table → Option Table) : Prop := ∀ t t', Table.Bounded t → f t = some t' → t'.Bounded

def KeepsMember (f : Option Node → Option Node) : Prop :=
  ∀ o n, (∀ m ∈ o, m.Bounded) → f o = some n → n.Bounded

theorem keeps_change {f : Option Node → Option Node} (h : KeepsMember f) (name : String) :
    Keeps (change name f) := by
  intro t t' bounded changed
  induction t generalizing t' with
  | nil =>
    obtain ⟨n, new, rfl⟩ := Option.map_eq_some_iff.mp changed
    exact .cons (h none n nofun new) .nil
  | cons m rest ih =>
    obtain ⟨k, n⟩ := m
    obtain ⟨first, later⟩ := List.forall_mem_cons.mp bounded
    rw [change] at changed
    split at changed
    · obtain ⟨n', new, rfl⟩ := Option.map_eq_some_iff.mp changed
      have was : ∀ m ∈ some n, m.Bounded := by
        rintro m ⟨⟩
        exact first
      exact .cons (h _ n' was new) later
    · obtain ⟨rest', inside, rfl⟩ := Option.map_eq_some_iff.mp changed
      exact .cons first (ih rest' later inside)

theorem changeLast_bounded {f : Table → Option Table} (h : Keeps f) {items items' : List Table}
    (bounded : ∀ t ∈ items, t.Bounded) (changed : changeLast f items = some items') :
    ∀ t ∈ items', t.Bounded := by
  unfold changeLast at changed
  split at changed
  · cases changed
  · rename_i last before shape
    obtain ⟨last', new, rfl⟩ := Option.map_eq_some_iff.mp changed
    have parts : items = before.reverse ++ [last] := by
      rw [← List.reverse_reverse items, shape, List.reverse_cons]
    rw [parts] at bounded
    obtain ⟨start, finish⟩ := List.forall_mem_append.mp bounded
    have new := h last last' (finish last (.head _)) new
    exact List.forall_mem_append.mpr ⟨start, List.forall_mem_cons.mpr ⟨new, List.forall_mem_nil _⟩⟩

theorem keeps_along {f : Table → Option Table} (h : Keeps f) (fresh : Kind) (enter : Kind → Bool)
    (path : List String) : Keeps (along fresh enter f path) := by
  induction path with
  | nil => exact fun t t' bounded changed => h t t' bounded changed
  | cons name path ih =>
    refine keeps_change ?_ name
    intro o n bounded changed
    dsimp only at changed
    split at changed
    · obtain ⟨t, new, rfl⟩ := Option.map_eq_some_iff.mp changed
      exact .table fresh (ih [] t .nil new)
    · split at changed
      · obtain ⟨t, new, rfl⟩ := Option.map_eq_some_iff.mp changed
        cases bounded _ rfl with
        | table _ each => exact .table _ (ih _ t each new)
      · cases changed
    · obtain ⟨items, new, rfl⟩ := Option.map_eq_some_iff.mp changed
      cases bounded _ rfl with
      | tables each => exact .tables (changeLast_bounded ih each new)
    · cases changed

theorem keeps_put (name : String) {v : Node} (h : v.Bounded) : Keeps (put name v) := by
  refine keeps_change ?_ name
  intro o n _ changed
  dsimp only at changed
  split at changed
  · cases changed
    exact h
  · cases changed

theorem keeps_putUnder (parent name : String) {v : Node} (h : v.Bounded) :
    Keeps (putUnder parent name v) := by
  refine keeps_change ?_ parent
  intro o n bounded changed
  dsimp only at changed
  split at changed
  · cases changed
    exact .table _ (Table.Bounded.nil.cons h)
  · obtain ⟨t, new, rfl⟩ := Option.map_eq_some_iff.mp changed
    cases bounded _ rfl with
    | table _ each => exact .table _ (keeps_put name h _ t each new)
  · cases changed

theorem keeps_assign (path : List String) {v : Node} (h : v.Bounded) : Keeps (assign path v) := by
  intro t t' bounded changed
  unfold assign at changed
  split at changed
  · cases changed
  · exact keeps_put _ h t t' bounded changed
  · exact keeps_along (keeps_putUnder _ _ h) _ _ _ t t' bounded changed

theorem keeps_openTable (name : String) : Keeps (openTable name) := by
  refine keeps_change ?_ name
  intro o n bounded changed
  dsimp only at changed
  split at changed
  · cases changed
    exact .table _ Table.Bounded.nil
  · cases changed
    cases bounded _ rfl with
    | table _ each => exact .table _ each
  · cases changed

theorem keeps_openNextTable (name : String) : Keeps (openNextTable name) := by
  have blank : ∀ t ∈ [([] : Table)], Table.Bounded t :=
    List.forall_mem_cons.mpr ⟨.nil, List.forall_mem_nil _⟩
  refine keeps_change ?_ name
  intro o n bounded changed
  dsimp only at changed
  split at changed
  · cases changed
    exact .tables blank
  · cases changed
    cases bounded _ rfl with
    | tables each => exact .tables (List.forall_mem_append.mpr ⟨each, blank⟩)
  · cases changed

theorem inlineTable_bounded {pairs : List (List String × Node)} {n : Node}
    (each : ∀ p ∈ pairs, p.2.Bounded) (h : inlineTable pairs = some n) : n.Bounded := by
  have all (t t' : Table) (bounded : t.Bounded)
      (built : pairs.foldlM (fun t p => assign p.1 p.2 t) t = some t') : t'.Bounded := by
    clear h
    induction pairs generalizing t with
    | nil =>
      cases built
      exact bounded
    | cons p pairs ih =>
      obtain ⟨first, later⟩ := List.forall_mem_cons.mp each
      obtain ⟨u, one, rest⟩ := Option.bind_eq_some_iff.mp built
      exact ih later u (keeps_assign p.1 first t u bounded one) rest
  obtain ⟨t, built, rfl⟩ := Option.map_eq_some_iff.mp h
  exact .table _ (all [] t .nil built)

/-! ## Statements -/

theorem readValue_bounded (depth : Nat) (cs : List Char) (v : Node) (r : List Char)
    (h : readValue depth cs = some (v, r)) : v.Bounded := by
  induction depth using Nat.strongRecOn generalizing cs v r with
  | ind depth ih =>
    unfold readValue at h
    split at h
    · split at h
      · cases h
      · obtain ⟨⟨vs, behind⟩, items, same⟩ := Option.map_eq_some_iff.mp h
        cases same
        exact .array (readItems_bounded (ih _ (Nat.lt_succ_self _)) _ items)
    · split at h
      · cases h
      · cases h
        exact .table _ Table.Bounded.nil
      · obtain ⟨⟨ps, behind⟩, pairs, h⟩ := Option.bind_eq_some_iff.mp h
        obtain ⟨n, built, h⟩ := Option.bind_eq_some_iff.mp h
        cases h
        have each := readPairs_bounded (ih _ (Nat.lt_succ_self _)) _ pairs
        exact inlineTable_bounded each built
    · obtain ⟨s, -, same⟩ := Option.map_eq_some_iff.mp h
      cases same
      exact .text _
    · obtain ⟨s, -, same⟩ := Option.map_eq_some_iff.mp h
      cases same
      exact .text _
    · exact readWord_bounded h

def Statement.Bounded : Statement → Prop
  | .pair _ v => v.Bounded
  | .header _ | .nextHeader _ => True

theorem readStatement_bounded {cs r : List Char} {statement : Option Statement}
    (h : readStatement cs = some (statement, r)) : ∀ s ∈ statement, s.Bounded := by
  unfold readStatement at h
  split at h
  -- blank lines, comments and the end of the text state nothing
  iterate 4
    · cases h
      exact nofun
  · obtain ⟨⟨path, behind⟩, -, h⟩ := Option.bind_eq_some_iff.mp h
    dsimp only at h
    split at h
    · cases h
      rintro s ⟨⟩
      trivial
    · cases h
  · obtain ⟨⟨path, behind⟩, -, h⟩ := Option.bind_eq_some_iff.mp h
    dsimp only at h
    split at h
    · cases h
      rintro s ⟨⟩
      trivial
    · cases h
  · obtain ⟨⟨p, behind⟩, pair, h⟩ := Option.bind_eq_some_iff.mp h
    cases h
    rintro s ⟨⟩
    exact readPair_bounded (readValue_bounded _) pair

theorem readStatements_bounded (fuel : Nat) {cs : List Char} {statements : List Statement}
    (h : readStatements fuel cs = some statements) : ∀ s ∈ statements, s.Bounded := by
  induction fuel generalizing cs statements with
  | zero =>
    cases cs with
    | nil =>
      cases h
      exact List.forall_mem_nil _
    | cons c cs => cases h
  | succ fuel ih =>
    cases cs with
    | nil =>
      cases h
      exact List.forall_mem_nil _
    | cons c cs =>
      obtain ⟨⟨statement, behind⟩, first, h⟩ := Option.bind_eq_some_iff.mp h
      obtain ⟨next, -, h⟩ := Option.bind_eq_some_iff.mp h
      obtain ⟨rest, later, h⟩ := Option.bind_eq_some_iff.mp h
      cases h
      refine List.forall_mem_append.mpr ⟨fun s among => ?_, ih later⟩
      exact readStatement_bounded first s (Option.mem_toList.mp among)

theorem take_bounded {b b' : Building} {s : Statement} (h : s.Bounded) (bounded : b.root.Bounded)
    (taken : b.take s = some b') : b'.root.Bounded := by
  cases s with
  | header path =>
    obtain ⟨name, -, taken⟩ := Option.bind_eq_some_iff.mp taken
    obtain ⟨root, changed, taken⟩ := Option.bind_eq_some_iff.mp taken
    cases taken
    exact keeps_along (keeps_openTable name) _ _ _ _ root bounded changed
  | nextHeader path =>
    obtain ⟨name, -, taken⟩ := Option.bind_eq_some_iff.mp taken
    obtain ⟨root, changed, taken⟩ := Option.bind_eq_some_iff.mp taken
    cases taken
    exact keeps_along (keeps_openNextTable name) _ _ _ _ root bounded changed
  | pair path v =>
    obtain ⟨root, changed, taken⟩ := Option.bind_eq_some_iff.mp taken
    cases taken
    exact keeps_along (keeps_assign path h) _ _ _ _ root bounded changed

theorem takes_bounded {statements : List Statement} (each : ∀ s ∈ statements, s.Bounded)
    {b b' : Building} (bounded : b.root.Bounded)
    (taken : statements.foldlM Building.take b = some b') : b'.root.Bounded := by
  induction statements generalizing b with
  | nil =>
    cases taken
    exact bounded
  | cons s statements ih =>
    obtain ⟨first, later⟩ := List.forall_mem_cons.mp each
    obtain ⟨next, one, rest⟩ := Option.bind_eq_some_iff.mp taken
    exact ih later (take_bounded first bounded one) rest

theorem read_bounded {s : String} {table : Table} (h : read s = some table) : table.Bounded := by
  obtain ⟨statements, parsed, h⟩ := Option.bind_eq_some_iff.mp h
  obtain ⟨b, built, h⟩ := Option.bind_eq_some_iff.mp h
  cases h
  exact takes_bounded (readStatements_bounded _ parsed) .nil built

/-! ## Documents -/

theorem nodeDocs_eq (items : List Node) : nodeDocs items = items.map Node.toDoc := by
  induction items with
  | nil => rfl
  | cons n items ih => rw [nodeDocs, ih, List.map_cons]

theorem memberDocs_eq (t : Table) : memberDocs t = t.map fun m => (.ok m.1, m.2.toDoc) := by
  induction t with
  | nil => rfl
  | cons m t ih => rw [memberDocs, ih, List.map_cons]

theorem tableDocs_eq (items : List Table) :
    tableDocs items = items.map fun t => .object (memberDocs t) none := by
  induction items with
  | nil => rfl
  | cons t items ih => rw [tableDocs, ih, List.map_cons]

theorem memberDocs_within {t : Table} (h : ∀ m ∈ t, m.2.toDoc.Within maxWhole) :
    ∀ m ∈ memberDocs t, m.2.Within maxWhole := by
  rw [memberDocs_eq]
  intro m among
  obtain ⟨m, inside, rfl⟩ := List.mem_map.mp among
  exact h m inside

theorem Node.Bounded.toDoc {n : Node} (h : n.Bounded) : n.toDoc.Within maxWhole := by
  induction h with
  | text s => exact .text s
  | whole le => exact .whole le
  | float x => exact .float x
  | bool b => exact .bool b
  | moment s => exact .object none (List.forall_mem_cons.mpr ⟨.text s, List.forall_mem_nil _⟩)
  | array _ ih =>
    refine .array none ?_
    rw [nodeDocs_eq]
    intro d among
    obtain ⟨n, inside, rfl⟩ := List.mem_map.mp among
    exact ih n inside
  | table kind _ ih => exact .object none (memberDocs_within ih)
  | tables _ ih =>
    refine .array none ?_
    rw [tableDocs_eq]
    intro d among
    obtain ⟨t, inside, rfl⟩ := List.mem_map.mp among
    exact .object none (memberDocs_within (ih t inside))

theorem within_of_read {s : String} {table : Table} (h : read s = some table) (kind : Kind) :
    (Node.table kind table).toDoc.Within maxWhole :=
  Node.Bounded.toDoc (.table kind (read_bounded h))

end Ensemble.Toml
