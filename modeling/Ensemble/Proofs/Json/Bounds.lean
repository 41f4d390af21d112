import Ensemble.Proofs.Json.Sorted

/-!
# What decoders make of documents

A document is within a limit if its whole numbers are. `Gives` says what a decoder makes of every
such document. A record gives what follows from its fields: each was read of a document within the
limit, or has its default (`Gives.record`, `Fields.Gives.defaulted`).

Numbers below zero have no limit here.
-/

namespace Ensemble.Json

/-- No whole number of the document is greater. -/
inductive Doc.Within (limit : Nat) : Doc → Prop where
  | null : Within limit .null
  | bool (b : Bool) : Within limit (.bool b)
  | text (s : String) : Within limit (.text s)
  | float (x : Float) : Within limit (.number (.float x))
  | whole {n : Int} (le : n ≤ limit) : Within limit (.number (.whole n))
  | array {items : List Doc} (tail : Option ReadError) (each : ∀ d ∈ items, Within limit d) :
      Within limit (.array items tail)
  | object {members : List (Except ReadError String × Doc)} (tail : Option ReadError)
      (each : ∀ m ∈ members, Within limit m.2) : Within limit (.object members tail)

/-- Whatever is decoded of a document within the limit has the property. -/
def Gives {α : Type} (limit : Nat) (decode : Decoder α) (P : α → Prop) : Prop :=
  ∀ src d a, d.Within limit → decode src d = .ok a → P a

def Fields.Gives {α : Type} (limit : Nat) (fields : Fields α) (P : α → Prop) : Prop :=
  ∀ src (ms : Members) a, (∀ e ∈ ms.entries, e.2.2.Within limit) → fields.read src ms = .ok a → P a

variable {α β : Type} {limit : Nat}

theorem map_eq_ok {ε : Type} {r : Except ε α} {f : α → β} {b : β} (h : r.map f = .ok b) :
    ∃ a, r = .ok a ∧ f a = b := by
  cases r with
  | error e => cases h
  | ok a => exact ⟨a, rfl, Except.ok.inj h⟩

theorem bind_eq_ok {ε : Type} {r : Except ε α} {f : α → Except ε β} {b : β}
    (h : r.bind f = .ok b) : ∃ a, r = .ok a ∧ f a = .ok b := by
  cases r with
  | error e => cases h
  | ok a => exact ⟨a, rfl, h⟩

theorem refuse_ne_ok (d : Doc) (expected : String) (a : α) : d.refuse expected ≠ .ok a := by
  unfold Doc.refuse
  split <;> exact nofun

namespace Gives

variable {decode : Decoder α} {P : α → Prop}

theorem any (decode : Decoder α) : Gives limit decode fun _ => True := fun _ _ _ _ _ => trivial

theorem whole (expected : String) (low high : Int) :
    Gives limit (Decode.whole expected low high) fun n => low ≤ n ∧ n ≤ limit := by
  intro src d n within h
  unfold Decode.whole at h
  split at h
  · split at h
    · rename_i bounds
      cases h
      cases within with
      | whole le => exact ⟨bounds.1, le⟩
    · cases h
  · exact absurd h (refuse_ne_ok _ _ _)

theorem size : Gives limit Decode.size (· ≤ limit) := by
  intro src d n within h
  obtain ⟨m, read, rfl⟩ := map_eq_ok h
  obtain ⟨-, le⟩ := whole _ _ _ src d m within read
  exact Int.toNat_le.mpr le

theorem word64 : Gives limit Decode.word64 fun n => n.toNat ≤ limit := by
  intro src d n within h
  obtain ⟨m, read, rfl⟩ := map_eq_ok h
  obtain ⟨-, le⟩ := whole _ _ _ src d m within read
  rw [UInt64.toNat_ofNat']
  exact Nat.le_trans (Nat.mod_le _ _) (Int.toNat_le.mpr le)

theorem option (h : Gives limit decode P) :
    Gives limit (Decode.option decode) fun o => ∀ a, o = some a → P a := by
  intro src d o within read a same
  subst same
  unfold Decode.option at read
  split at read
  · cases read
  · obtain ⟨b, read, same⟩ := map_eq_ok read
    cases same
    exact h src d a within read

theorem items {decode : Doc → Except Error α} {tail : Option ReadError} {ds : List Doc}
    (h : ∀ d ∈ ds, ∀ a, decode d = .ok a → P a) {as : List α}
    (read : Decode.items decode tail ds = .ok as) : ∀ a ∈ as, P a := by
  induction ds generalizing as with
  | nil =>
    obtain ⟨-, -, rfl⟩ := map_eq_ok read
    exact List.forall_mem_nil _
  | cons d ds ih =>
    obtain ⟨first, later⟩ := List.forall_mem_cons.mp h
    obtain ⟨a, one, read⟩ := bind_eq_ok read
    obtain ⟨rest, more, read⟩ := bind_eq_ok read
    cases read
    exact List.forall_mem_cons.mpr ⟨first a one, ih later more⟩

theorem list (h : Gives limit decode P) :
    Gives limit (Decode.list decode) fun as => ∀ a ∈ as, P a := by
  intro src d as within read
  unfold Decode.list at read
  split at read
  · cases within with
    | array _ each => exact items (fun d among a => h _ d a (each d among)) read
  · exact absurd read (refuse_ne_ok _ _ _)

theorem map (decode : Decoder α) : Gives limit (Decode.map decode) Sorted := by
  intro src d ms within read
  unfold Decode.map at read
  split at read
  · obtain ⟨members, -, rfl⟩ := map_eq_ok read
    exact sorted_sortMembers members
  · exact absurd read (refuse_ne_ok _ _ _)

end Gives

/-! ## Records -/

theorem settle_eq_ok {faults : List MemberFault} {r : Except MemberFault α} {a : α}
    (h : Decode.settle faults r = .ok a) : r = .ok a := by
  unfold Decode.settle at h
  split at h
  · exact congrArg _ (Except.ok.inj h)
  all_goals cases h

theorem entriesOf_within (index : Nat) {members : List (Except ReadError String × Doc)}
    (each : ∀ m ∈ members, m.2.Within limit) :
    ∀ e ∈ Decode.entriesOf index members, e.2.2.Within limit := by
  induction members generalizing index with
  | nil => exact List.forall_mem_nil _
  | cons m members ih =>
    obtain ⟨first, later⟩ := List.forall_mem_cons.mp each
    obtain ⟨name, d⟩ := m
    cases name with
    | error e => exact ih (index + 1) later
    | ok name => exact List.forall_mem_cons.mpr ⟨first, ih (index + 1) later⟩

theorem positions_within (names : List String) {ds : List Doc} (each : ∀ d ∈ ds, d.Within limit) :
    ∀ e ∈ Decode.positions names ds, e.2.2.Within limit := by
  intro e among
  obtain ⟨⟨⟨name, d⟩, i⟩, inside, rfl⟩ := List.mem_map.mp among
  exact each d (List.of_mem_zip (List.fst_mem_of_mem_zipIdx inside)).2

theorem Gives.record {fields : Fields α} {P : α → Prop} (what : String)
    (h : fields.Gives limit P) : Gives limit (Decode.record what fields) P := by
  intro src d a within read
  unfold Decode.record at read
  split at read
  · cases within with
    | object _ each => exact h _ _ a (entriesOf_within 0 each) (settle_eq_ok read)
  · cases within with
    | array _ each => exact h _ _ a (positions_within _ each) (settle_eq_ok read)
  · exact absurd read (refuse_ne_ok _ _ _)

namespace Fields.Gives

variable {decode : Decoder α} {P : α → Prop}

theorem map {f : α → β} {x : Fields α} {Q : β → Prop} (h : x.Gives limit P)
    (step : ∀ a, P a → Q (f a)) : (f <$> x).Gives limit Q := by
  intro src ms b within read
  change (x.read src ms).map f = .ok b at read
  obtain ⟨a, given, rfl⟩ := map_eq_ok read
  exact step a (h src ms a within given)

theorem seq {f : Fields (α → β)} {x : Fields α} {Q : β → Prop}
    (hf : f.Gives limit fun g => ∀ a, P a → Q (g a)) (hx : x.Gives limit P) :
    (f <*> x).Gives limit Q := by
  intro src ms b within read
  change (Fields.seq f x).read src ms = .ok b at read
  unfold Fields.seq at read
  dsimp only at read
  split at read
  · rename_i g a readF readX
    cases read
    exact hf src ms g within readF a (hx src ms a within readX)
  all_goals cases read

theorem defaulted (name : String) {default : α} (given : P default)
    (h : Json.Gives limit decode P) : (Fields.defaulted name default decode).Gives limit P := by
  intro src ms a within read
  unfold Fields.defaulted at read
  dsimp only at read
  split at read
  · rename_i index d found
    obtain ⟨e, among, same⟩ := Option.map_eq_some_iff.mp found
    cases same
    unfold decodeAt at read
    split at read
    · rename_i decoded
      cases read
      exact h src _ a (within e (List.mem_of_find?_eq_some among)) decoded
    · cases read
  · cases read
    exact given

theorem optional (name : String) (h : Json.Gives limit decode P) :
    (Fields.optional name decode).Gives limit fun o => ∀ a, o = some a → P a :=
  defaulted name nofun h.option

theorem any (name : String) (default : α) (decode : Decoder α) :
    (Fields.defaulted name default decode).Gives limit fun _ => True :=
  defaulted name trivial (.any decode)

end Fields.Gives

end Ensemble.Json
