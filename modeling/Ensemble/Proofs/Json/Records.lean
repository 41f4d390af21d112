import Ensemble.Message.Codec
import Ensemble.Proofs.Json.Reading

/-!
# Records in any order

A form is a set of values that say the same. A record may have its members in any order and texts
under names it does not know (`RecordOf`); a field that is left out has no member. A decoder that
reads each form of the fields reads each form of the record (`Reads.record`), and a tag that says
which variant is meant may stand anywhere among the members (`Reads.tagged`).

Records written as arrays are not covered.
-/

namespace Ensemble.Json

/-- The values that are written for one thing. -/
abbrev Form := Json → Prop

/-! ## Forms -/

def exactly (v : Json) : Form := fun w => w = v

def orNullForm (form : α → Form) : Option α → Form
  | some a => form a
  | none => exactly .null

inductive ListOf : List Form → List Json → Prop where
  | nil : ListOf [] []
  | cons {form : Form} {forms : List Form} {v : Json} {items : List Json} (first : form v)
      (rest : ListOf forms items) : ListOf (form :: forms) (v :: items)

def listOf (forms : List Form) : Form := fun v => ∃ items, v = .array items ∧ ListOf forms items

/-- These members are the fields that are written, in the order of the fields. -/
inductive Filled : List (String × Option Form) → List (String × Json) → Prop where
  | nil : Filled [] []
  | written {form : Form} {fields : List (String × Option Form)} {members : List (String × Json)}
      {v : Json} (name : String) (value : form v) (rest : Filled fields members) :
      Filled ((name, some form) :: fields) ((name, v) :: members)
  | left {fields : List (String × Option Form)} {members : List (String × Json)} (name : String)
      (rest : Filled fields members) : Filled ((name, none) :: fields) members

/-- The fields in any order, and texts under other names. -/
inductive RecordOf (fields : List (String × Option Form)) : Form where
  | object {members filled extra : List (String × Json)} (written : Filled fields filled)
      (unknown : ∀ m ∈ extra, m.1 ∉ fields.map Prod.fst ∧ ∃ s, m.2 = .text s)
      (order : members.Perm (filled ++ extra)) : RecordOf fields (.object members)

theorem RecordOf.plain {fields : List (String × Option Form)} {members : List (String × Json)}
    (written : Filled fields members) : RecordOf fields (.object members) := by
  have order : members.Perm (members ++ []) := by rw [List.append_nil]
  exact .object written (fun _ among => absurd among List.not_mem_nil) order

/-- A form with its members in another order and with unknown texts added is a form. -/
theorem RecordOf.rearranged {fields : List (String × Option Form)}
    {members others : List (String × Json)} (extra : List (String × Json))
    (h : RecordOf fields (.object members)) (order : others.Perm (members ++ extra))
    (unknown : ∀ m ∈ extra, m.1 ∉ fields.map Prod.fst ∧ ∃ s, m.2 = .text s) :
    RecordOf fields (.object others) := by
  obtain @⟨_, filled, before, written, unknown', order'⟩ := h
  have all : others.Perm (filled ++ (before ++ extra)) := by
    rw [← List.append_assoc]
    exact order.trans (order'.append_right extra)
  refine .object written (fun m among => ?_) all
  rcases List.mem_append.mp among with early | late
  · exact unknown' m early
  · exact unknown m late

theorem Filled.append {fields more : List (String × Option Form)}
    {members others : List (String × Json)} (h : Filled fields members)
    (h' : Filled more others) : Filled (fields ++ more) (members ++ others) := by
  induction h with
  | nil => exact h'
  | written name value _ ih => exact .written name value ih
  | left name _ ih => exact .left name ih

theorem Filled.whenSome {α : Type} (name : String) (each : α → Form) (write : α → Json)
    (o : Option α) (h : ∀ a, each a (write a)) :
    Filled [(name, o.map each)] (whenSome name write o) := by
  cases o with
  | none => exact .left name .nil
  | some a => exact .written name (h a) .nil

theorem listOf_map {α : Type} (each : α → Form) (write : α → Json) (as : List α)
    (h : ∀ a ∈ as, each a (write a)) : listOf (as.map each) (.array (as.map write)) := by
  refine ⟨_, rfl, ?_⟩
  induction as with
  | nil => exact .nil
  | cons a as ih => exact .cons (h a (.head _)) (ih fun b among => h b (.tail _ among))

/-! ## Depth -/

/-- Every form is nested at most so deep and has numbers that are read as they are written. -/
def Form.Within (depth : Nat) (form : Form) : Prop := ∀ v, form v → Legible depth v

inductive Shallow (depth : Nat) : List (String × Option Form) → Prop where
  | nil : Shallow depth []
  | written {form : Form} {fields : List (String × Option Form)} {name : String}
      (value : form.Within depth) (rest : Shallow depth fields) :
      Shallow depth ((name, some form) :: fields)
  | left {fields : List (String × Option Form)} {name : String} (rest : Shallow depth fields) :
      Shallow depth ((name, none) :: fields)

section Depth

variable {depth : Nat} {fields : List (String × Option Form)}

theorem within_text (depth : Nat) (s : String) : Form.Within depth (exactly (.text s)) := by
  rintro v rfl
  exact .text depth s

theorem within_bool (depth : Nat) (b : Bool) : Form.Within depth (exactly (.bool b)) := by
  rintro v rfl
  exact .bool depth b

theorem within_word (depth : Nat) (n : UInt64) : Form.Within depth (exactly (.nat n.toNat)) := by
  rintro v rfl
  have fits : n.toNat ≤ maxWord := Nat.le_of_lt_succ n.toNat_lt
  exact .number depth (numeral_of_word fits)

theorem within_float (depth : Nat) {x : Float} (h : ReadsBack x) :
    Form.Within depth (exactly (.float x)) := by
  rintro v rfl
  exact .number depth (numeral_of_readsBack h)

theorem within_texts (depth : Nat) (ss : List String) :
    Form.Within (depth + 1) (exactly (.texts ss)) := by
  rintro v rfl
  refine .array fun w among => ?_
  obtain ⟨s, -, rfl⟩ := List.mem_map.mp among
  exact .text depth s

theorem within_orNull {α : Type} (each : α → Form) (o : Option α)
    (h : ∀ a, o = some a → (each a).Within depth) : (orNullForm each o).Within depth := by
  intro v form
  cases o with
  | none =>
    obtain rfl : v = .null := form
    exact .null depth
  | some a => exact h a rfl v form

theorem within_listOf {α : Type} (each : α → Form) (as : List α)
    (h : ∀ a ∈ as, (each a).Within depth) : (listOf (as.map each)).Within (depth + 1) := by
  rintro v ⟨items, rfl, listed⟩
  refine .array ?_
  induction as generalizing items with
  | nil =>
    cases listed
    exact nofun
  | cons a as ih =>
    obtain _ | ⟨first, rest⟩ := listed
    intro w among
    rcases List.mem_cons.mp among with rfl | later
    · exact h a (.head _) w first
    · exact ih (fun b among => h b (.tail _ among)) _ rest w later

theorem Shallow.option {α : Type} {name : String} (each : α → Form) {o : Option α}
    (h : ∀ a, o = some a → (each a).Within depth) (rest : Shallow depth fields) :
    Shallow depth ((name, o.map each) :: fields) := by
  cases o with
  | none => exact .left rest
  | some a => exact .written (h a rfl) rest

theorem Filled.legible {members : List (String × Json)} (h : Filled fields members)
    (shallow : Shallow depth fields) : ∀ m ∈ members, Legible depth m.2 := by
  induction h with
  | nil => exact nofun
  | written name value _ ih =>
    obtain _ | ⟨within, rest⟩ | _ := shallow
    intro m among
    rcases List.mem_cons.mp among with rfl | later
    · exact within _ value
    · exact ih rest m later
  | left name _ ih =>
    obtain _ | _ | rest := shallow
    exact ih rest

theorem within_recordOf (h : Shallow depth fields) : (RecordOf fields).Within (depth + 1) := by
  intro v form
  obtain @⟨members, filled, extra, written, unknown, order⟩ := form
  refine .object fun m among => ?_
  rcases List.mem_append.mp (order.mem_iff.mp among) with filled | surplus
  · exact written.legible h m filled
  · obtain ⟨s, text⟩ := (unknown m surplus).2
    rw [text]
    exact .text depth s

end Depth

/-! ## Members by name -/

section Members

variable {fields : List (String × Option Form)} {members filled extra : List (String × Json)}

theorem Filled.names (h : Filled fields filled) :
    (filled.map Prod.fst).Sublist (fields.map Prod.fst) := by
  induction h with
  | nil => exact .slnil
  | written name _ _ ih => exact ih.cons_cons name
  | left name _ ih => exact ih.cons name

theorem Filled.filter_nil (h : Filled fields filled) {name : String}
    (absent : name ∉ fields.map Prod.fst) : (filled.filter fun m => m.1 == name) = [] := by
  refine List.filter_eq_nil_iff.mpr fun m among same => absent ?_
  rw [← eq_of_beq same]
  exact h.names.subset (List.mem_map_of_mem among)

def Has (members : List (String × Json)) (name : String) : Option Form → Prop
  | some form => ∃ v, (members.filter fun m => m.1 == name) = [(name, v)] ∧ form v
  | none => (members.filter fun m => m.1 == name) = []

theorem Filled.has (h : Filled fields filled) (once : (fields.map Prod.fst).Nodup) :
    ∀ f ∈ fields, Has filled f.1 f.2 := by
  induction h with
  | nil => exact fun _ among => absurd among List.not_mem_nil
  | @written form fields members v name value rest ih =>
    rw [List.map_cons, List.nodup_cons] at once
    intro f among
    rcases List.mem_cons.mp among with rfl | later
    · refine ⟨v, ?_, value⟩
      rw [List.filter_cons_of_pos (by simp), rest.filter_nil once.1]
    · have other : name ≠ f.1 := by
        intro same
        have among : f.1 ∈ fields.map Prod.fst := List.mem_map_of_mem later
        exact once.1 (same ▸ among)
      have has := ih once.2 f later
      cases written : f.2 with
      | none =>
        rw [written] at has
        exact (List.filter_cons_of_neg (by simpa using other)).trans has
      | some form =>
        rw [written] at has
        obtain ⟨w, only, value⟩ := has
        exact ⟨w, (List.filter_cons_of_neg (by simpa using other)).trans only, value⟩
  | @left fields members name rest ih =>
    rw [List.map_cons, List.nodup_cons] at once
    intro f among
    rcases List.mem_cons.mp among with rfl | later
    · exact rest.filter_nil once.1
    · exact ih once.2 f later

theorem RecordOf.has (written : Filled fields filled)
    (unknown : ∀ m ∈ extra, m.1 ∉ fields.map Prod.fst ∧ ∃ s, m.2 = .text s)
    (order : members.Perm (filled ++ extra)) (once : (fields.map Prod.fst).Nodup) :
    ∀ f ∈ fields, Has members f.1 f.2 := by
  intro f among
  have other : (extra.filter fun m => m.1 == f.1) = [] := by
    refine List.filter_eq_nil_iff.mpr fun m surplus same => (unknown m surplus).1 ?_
    rw [eq_of_beq same]
    exact List.mem_map_of_mem among
  have same := order.filter fun m => m.1 == f.1
  rw [List.filter_append, other, List.append_nil] at same
  have has := written.has once f among
  cases value : f.2 with
  | none =>
    rw [value] at has
    rw [has] at same
    exact same.eq_nil
  | some form =>
    rw [value] at has
    obtain ⟨v, only, value⟩ := has
    rw [only] at same
    exact ⟨v, same.eq_singleton, value⟩

theorem RecordOf.known_once (written : Filled fields filled)
    (unknown : ∀ m ∈ extra, m.1 ∉ fields.map Prod.fst ∧ ∃ s, m.2 = .text s)
    (order : members.Perm (filled ++ extra)) (once : (fields.map Prod.fst).Nodup) :
    ((members.map Prod.fst).filter (· ∈ fields.map Prod.fst)).Nodup := by
  have surplus : ((extra.map Prod.fst).filter (· ∈ fields.map Prod.fst)) = [] := by
    refine List.filter_eq_nil_iff.mpr fun name among known => ?_
    obtain ⟨m, surplus, rfl⟩ := List.mem_map.mp among
    exact (unknown m surplus).1 (of_decide_eq_true known)
  have same := (order.map Prod.fst).filter (· ∈ fields.map Prod.fst)
  rw [List.map_append, List.filter_append, surplus, List.append_nil] at same
  exact same.nodup_iff.mpr (.filter _ (written.names.nodup once))

end Members

/-! ## Members as documents -/

mutual

theorem skip_ofJson : ∀ v : Json, (Doc.ofJson v).skip = .ok ()
  | .null | .bool _ | .number _ | .text _ => rfl
  | .array items => by
    rw [Doc.ofJson, Doc.skip, skip_ofItems items]
    rfl
  | .object members => by
    rw [Doc.ofJson, Doc.skip, skip_ofMembers members]
    rfl

theorem skip_ofItems : ∀ items : List Json, Doc.skipItems (Doc.ofItems items) = .ok ()
  | [] => rfl
  | v :: rest => by
    rw [Doc.ofItems, Doc.skipItems, skip_ofJson v]
    exact skip_ofItems rest

theorem skip_ofMembers :
    ∀ members : List (String × Json), Doc.skipMembers (Doc.ofMembers members) = .ok ()
  | [] => rfl
  | (_, v) :: rest => by
    rw [Doc.ofMembers, Doc.skipMembers, skip_ofJson v]
    exact skip_ofMembers rest

end

mutual

theorem toJson_ofJson : ∀ v : Json, ∃ w, (Doc.ofJson v).toJson = .ok w
  | .null | .bool _ | .number _ | .text _ => ⟨_, rfl⟩
  | .array items => by
    obtain ⟨ws, read⟩ := toItems_ofItems items
    exact ⟨.array ws, by rw [Doc.ofJson, Doc.toJson, read]; rfl⟩
  | .object members => by
    obtain ⟨ws, read⟩ := toMembers_ofMembers members
    exact ⟨.sorted ws, by rw [Doc.ofJson, Doc.toJson, read]; rfl⟩

theorem toItems_ofItems : ∀ items : List Json, ∃ ws, Doc.toItems (Doc.ofItems items) = .ok ws
  | [] => ⟨[], rfl⟩
  | v :: rest => by
    obtain ⟨w, first⟩ := toJson_ofJson v
    obtain ⟨ws, later⟩ := toItems_ofItems rest
    exact ⟨w :: ws, by rw [Doc.ofItems, Doc.toItems, first, later]; rfl⟩

theorem toMembers_ofMembers :
    ∀ members : List (String × Json), ∃ ws, Doc.toMembers (Doc.ofMembers members) = .ok ws
  | [] => ⟨[], rfl⟩
  | (name, v) :: rest => by
    obtain ⟨w, first⟩ := toJson_ofJson v
    obtain ⟨ws, later⟩ := toMembers_ofMembers rest
    exact ⟨(name, w) :: ws, by rw [Doc.ofMembers, Doc.toMembers, first, later]; rfl⟩

end

section Members

variable {known seen : List String} {members : List (String × Json)} {name : String}

theorem memberFaults_nil {index : Nat} (once : ((members.map Prod.fst).filter (· ∈ known)).Nodup)
    (fresh : ∀ name ∈ seen, name ∉ members.map Prod.fst) :
    Decode.memberFaults known seen index (Doc.ofMembers members) = [] := by
  induction members generalizing seen index with
  | nil => rfl
  | cons m rest ih =>
    obtain ⟨name, v⟩ := m
    have newer : ∀ n ∈ seen, n ∉ rest.map Prod.fst := fun n among later =>
      fresh n among (List.mem_cons_of_mem _ later)
    rw [Doc.ofMembers, Decode.memberFaults]
    by_cases isKnown : name ∈ known
    · rw [List.map_cons, List.filter_cons_of_pos (by simpa using isKnown), List.nodup_cons] at once
      have unseen : name ∉ seen := fun among => fresh name among (List.mem_cons_self ..)
      rw [if_pos isKnown, if_neg unseen]
      refine ih once.2 fun n among => ?_
      rcases List.mem_cons.mp among with rfl | among
      · exact fun later => once.1 (List.mem_filter.mpr ⟨later, by simpa using isKnown⟩)
      · exact newer n among
    · rw [List.map_cons, List.filter_cons_of_neg (by simpa using isKnown)] at once
      rw [if_neg isKnown, skip_ofJson]
      exact ih once newer

theorem find?_entriesOf {v : Json} (index : Nat)
    (only : (members.filter fun m => m.1 == name) = [(name, v)]) :
    ∃ i, (Decode.entriesOf index (Doc.ofMembers members)).find? (fun e => e.2.1 == name) =
      some (i, name, .ofJson v) := by
  induction members generalizing index with
  | nil => cases only
  | cons m rest ih =>
    obtain ⟨other, w⟩ := m
    by_cases same : other = name
    · subst same
      rw [List.filter_cons_of_pos (by simp)] at only
      obtain ⟨⟨-, rfl⟩, -⟩ := List.cons.inj only |>.imp_left Prod.mk.inj
      exact ⟨index, by simp [Doc.ofMembers, Decode.entriesOf]⟩
    · rw [List.filter_cons_of_neg (by simpa using same)] at only
      obtain ⟨i, found⟩ := ih (index + 1) only
      refine ⟨i, ?_⟩
      rwa [Doc.ofMembers, Decode.entriesOf, List.find?_cons_of_neg (by simpa using same)]

theorem find?_entriesOf_none {index : Nat}
    (absent : (members.filter fun m => m.1 == name) = []) :
    (Decode.entriesOf index (Doc.ofMembers members)).find? (fun e => e.2.1 == name) = none := by
  induction members generalizing index with
  | nil => rfl
  | cons m rest ih =>
    obtain ⟨other, w⟩ := m
    have differs : ¬ (other == name) = true := List.filter_eq_nil_iff.mp absent _ (.head _)
    rw [List.filter_cons_of_neg (by exact differs)] at absent
    rw [Doc.ofMembers, Decode.entriesOf, List.find?_cons_of_neg (by exact differs)]
    exact ih absent

end Members

/-! ## Decoders -/

/-- Every form is read as `a`. -/
structure Reads {α : Type} (decode : Decoder α) (form : Form) (a : α) : Prop where
  read : ∀ src v, form v → decode src (.ofJson v) = .ok a
  /-- Null is left for what is not there. -/
  given : ∀ v, form v → v ≠ .null

section Values

variable {α β : Type} {decode : Decoder α} {form : Form} {a : α}

theorem Reads.textAs (expected s : String) :
    Reads (Decode.textAs expected) (exactly (.text s)) s where
  read _ _ h := by rw [h]; rfl
  given _ h := by rw [h]; exact Json.noConfusion

theorem Reads.text (s : String) : Reads Decode.text (exactly (.text s)) s := .textAs _ s

theorem Reads.bool (b : Bool) : Reads Decode.bool (exactly (.bool b)) b where
  read _ _ h := by rw [h]; rfl
  given _ h := by rw [h]; exact Json.noConfusion

theorem Reads.float (x : Float) : Reads Decode.float (exactly (.float x)) x where
  read _ _ h := by rw [h]; rfl
  given _ h := by rw [h]; exact Json.noConfusion

theorem Reads.word64 (n : UInt64) : Reads Decode.word64 (exactly (.nat n.toNat)) n where
  read _ _ h := by
    have bound : (n.toNat : Int) ≤ 0xFFFFFFFFFFFFFFFF := by
      have := n.toNat_lt
      omega
    rw [h, Json.nat, Doc.ofJson, Decode.word64, Decode.whole,
      if_pos ⟨Int.natCast_nonneg _, bound⟩]
    exact congrArg Except.ok (UInt64.ofNat_toNat)
  given _ h := by rw [h]; exact Json.noConfusion

theorem Reads.size {n : Nat} (fits : n ≤ 0xFFFFFFFFFFFFFFFF) :
    Reads Decode.size (exactly (.nat n)) n where
  read _ _ h := by
    have bound : (n : Int) ≤ 0xFFFFFFFFFFFFFFFF := by omega
    rw [h, Json.nat, Doc.ofJson, Decode.size, Decode.whole,
      if_pos ⟨Int.natCast_nonneg _, bound⟩]
    rfl
  given _ h := by rw [h]; exact Json.noConfusion

theorem Reads.word32 (n : UInt32) : Reads Decode.word32 (exactly (.nat n.toNat)) n where
  read _ _ h := by
    have bound : (n.toNat : Int) ≤ 0xFFFFFFFF := by
      have := n.toNat_lt
      omega
    rw [h, Json.nat, Doc.ofJson, Decode.word32, Decode.whole,
      if_pos ⟨Int.natCast_nonneg _, bound⟩]
    exact congrArg Except.ok (UInt32.ofNat_toNat)
  given _ h := by rw [h]; exact Json.noConfusion

theorem Reads.variant {variants : List (String × α)} {name : String}
    (known : variants.lookup name = some a) :
    Reads (Decode.variant variants) (exactly (.text name)) a where
  read _ _ h := by rw [h, Doc.ofJson, Decode.variant, Decode.lookupVariant, known]
  given _ h := by rw [h]; exact Json.noConfusion

theorem Reads.map (h : Reads decode form a) (f : α → β) :
    Reads (fun src d => (decode src d).map f) form (f a) where
  read src v written := by rw [h.read src v written]; rfl
  given := h.given

theorem Reads.list (each : α → Form) (as : List α) (h : ∀ a ∈ as, Reads decode (each a) a) :
    Reads (Decode.list decode) (listOf (as.map each)) as where
  read src v written := by
    obtain ⟨items, rfl, written⟩ := written
    show Decode.items (decode src) none (Doc.ofItems items) = _
    induction as generalizing items with
    | nil =>
      cases written
      rfl
    | cons a as ih =>
      obtain _ | ⟨first, rest⟩ := written
      rw [Doc.ofItems, Decode.items, (h a (.head _)).read src _ first,
        ih (fun b among => h b (.tail _ among)) _ rest]
      rfl
  given v written := by
    obtain ⟨items, rfl, -⟩ := written
    exact Json.noConfusion

theorem Reads.texts (ss : List String) :
    Reads (Decode.list Decode.text) (exactly (.texts ss)) ss where
  read src v h := by
    rw [h]
    clear h
    show Decode.items (Decode.text src) none (Doc.ofItems (ss.map .text)) = _
    induction ss with
    | nil => rfl
    | cons s ss ih =>
      rw [List.map_cons, Doc.ofItems, Decode.items, ih]
      rfl
  given _ h := by rw [h]; exact Json.noConfusion

theorem option_ofJson (h : Reads decode form a) {src : Source} {v : Json} (written : form v) :
    Decode.option decode src (.ofJson v) = .ok (some a) := by
  have read := h.read src v written
  have given := h.given v written
  cases v <;> first | exact absurd rfl given | (rw [Decode.option, read]; rfl; exact nofun)

end Values

/-- The members say for each field what is written there. -/
def Offers (ms : Members) (fields : List (String × Option Form)) : Prop :=
  ms.positional = false ∧ ∀ f ∈ fields, match f.2 with
    | some form => ∃ i v, ms.find? f.1 = some (i, .ofJson v) ∧ form v
    | none => ms.find? f.1 = none

/-- The fields of a reader, and what it gives for them. -/
structure Fits {α : Type} (x : Fields α) (fields : List (String × Option Form)) (a : α) : Prop where
  names : x.names = fields.map Prod.fst
  read : ∀ src ms, Offers ms fields → x.read src ms = .ok a

namespace Fits

variable {α β : Type} {decode : Decoder α} {form : Form} {a : α}

theorem map {x : Fields α} {fields : List (String × Option Form)} (h : Fits x fields a)
    (f : α → β) : Fits (f <$> x) fields (f a) where
  names := h.names
  read src ms offers := by
    show (x.read src ms).map f = _
    rw [h.read src ms offers]
    rfl

theorem seq {f : Fields (α → β)} {x : Fields α} {g : α → β}
    {fields more : List (String × Option Form)} (h : Fits f fields g) (h' : Fits x more a) :
    Fits (f <*> x) (fields ++ more) (g a) where
  names := by
    show f.names ++ x.names = _
    rw [h.names, h'.names, List.map_append]
  read src ms offers := by
    have first := h.read src ms ⟨offers.1, fun w among => offers.2 w (List.mem_append_left _ among)⟩
    have later := h'.read src ms
      ⟨offers.1, fun w among => offers.2 w (List.mem_append_right _ among)⟩
    simp only [Seq.seq, Fields.seq, first, later]

theorem required (name : String) (h : Reads decode form a) :
    Fits (.required name decode) [(name, some form)] a where
  names := rfl
  read src ms offers := by
    obtain ⟨i, v, found, written⟩ := offers.2 _ (.head _)
    simp only [Fields.required, found, Fields.decodeAt, h.read src v written]

theorem defaulted (name : String) (default : α) (h : Reads decode form a) :
    Fits (.defaulted name default decode) [(name, some form)] a where
  names := rfl
  read src ms offers := by
    obtain ⟨i, v, found, written⟩ := offers.2 _ (.head _)
    simp only [Fields.defaulted, found, Fields.decodeAt, h.read src v written]

theorem left (name : String) (default : α) (decode : Decoder α) :
    Fits (.defaulted name default decode) [(name, none)] default where
  names := rfl
  read src ms offers := by
    have absent : ms.find? name = none := offers.2 _ (.head _)
    simp only [Fields.defaulted, absent]

theorem optional (name : String) (each : α → Form) (o : Option α)
    (h : ∀ a, o = some a → Reads decode (each a) a) :
    Fits (.optional name decode) [(name, o.map each)] o := by
  cases o with
  | none => exact left name none _
  | some a =>
    refine ⟨rfl, fun src ms offers => ?_⟩
    obtain ⟨i, v, found, written⟩ := offers.2 _ (.head _)
    simp only [Fields.optional, Fields.defaulted, found, Fields.decodeAt,
      option_ofJson (h a rfl) written]

/-- Null says the same as a field that is left out. -/
theorem optional_null (name : String) (each : α → Form) (o : Option α)
    (h : ∀ a, o = some a → Reads decode (each a) a) :
    Fits (.optional name decode) [(name, some (orNullForm each o))] o := by
  refine ⟨rfl, fun src ms offers => ?_⟩
  obtain ⟨i, v, found, written⟩ := offers.2 _ (.head _)
  cases o with
  | none =>
    obtain rfl : v = .null := written
    simp only [Fields.optional, Fields.defaulted, found, Fields.decodeAt, Doc.ofJson, Decode.option]
  | some a =>
    simp only [Fields.optional, Fields.defaulted, found, Fields.decodeAt,
      option_ofJson (h a rfl) written]

theorem nullable (name : String) (each : α → Form) (o : Option α)
    (h : ∀ a, o = some a → Reads decode (each a) a) :
    Fits (.nullable name decode) [(name, o.map each)] o := by
  refine ⟨rfl, fun src ms offers => ?_⟩
  cases o with
  | none =>
    have absent : ms.find? name = none := offers.2 _ (.head _)
    simp only [Fields.nullable, absent, offers.1]
    rfl
  | some a =>
    obtain ⟨i, v, found, written⟩ := offers.2 _ (.head _)
    simp only [Fields.nullable, found, Fields.decodeAt, option_ofJson (h a rfl) written]

end Fits

section Records

variable {α : Type} {fields : List (String × Option Form)} {a : α}

theorem offers_entriesOf {members : List (String × Json)}
    (has : ∀ f ∈ fields, Has members f.1 f.2) (missing : String → Error) :
    Offers ⟨Decode.entriesOf 0 (Doc.ofMembers members), false, missing⟩ fields := by
  refine ⟨rfl, fun f among => ?_⟩
  have member := has f among
  cases field : f.2 with
  | none =>
    rw [field] at member
    simp only [Members.find?, find?_entriesOf_none member, Option.map_none]
  | some form =>
    rw [field] at member
    obtain ⟨v, only, written⟩ := member
    obtain ⟨i, found⟩ := find?_entriesOf 0 only
    exact ⟨i, v, by simp only [Members.find?, found, Option.map_some], written⟩

/-- A record is read from each of its forms. -/
theorem Reads.record {x : Fields α} (what : String) (h : Fits x fields a)
    (distinct : x.names.Nodup) :
    Reads (Decode.record what x) (RecordOf fields) a where
  read src v form := by
    obtain @⟨members, filled, extra, written, unknown, order⟩ := form
    have once : (fields.map Prod.fst).Nodup := h.names ▸ distinct
    have faults : Decode.memberFaults x.names [] 0 (Doc.ofMembers members) = [] := by
      rw [h.names]
      exact memberFaults_nil (RecordOf.known_once written unknown order once) nofun
    have offers := offers_entriesOf (RecordOf.has written unknown order once)
      (fun name => .data (.missing name))
    rw [Doc.ofJson, Decode.record, faults, h.read src _ offers]
    rfl
  given v form := by
    cases form
    exact Json.noConfusion

theorem Reads.bare (a : α) : Reads (Decode.bare a) (RecordOf fields) a where
  read src v form := by
    cases form
    rfl
  given v form := by
    cases form
    exact Json.noConfusion

end Records

section Tags

variable {tag : String} {members : List (String × Json)}

theorem tagFaults_nil {tagged : Bool} {index : Nat}
    (once : (members.filter fun m => m.1 == tag).length ≤ if tagged then 0 else 1) :
    Decode.tagFaults tag tagged index (Doc.ofMembers members) = [] := by
  induction members generalizing tagged index with
  | nil => rfl
  | cons m rest ih =>
    obtain ⟨name, v⟩ := m
    rw [Doc.ofMembers, Decode.tagFaults]
    by_cases isTag : name = tag
    · rw [List.filter_cons_of_pos (by simpa using isTag), List.length_cons] at once
      rw [if_pos isTag]
      cases tagged with
      | true => simp at once
      | false =>
        simp only [Bool.false_eq_true, if_false] at once ⊢
        exact ih (by simpa using once)
    · rw [List.filter_cons_of_neg (by simpa using isTag)] at once
      obtain ⟨w, read⟩ := toJson_ofJson v
      rw [if_neg isTag, read]
      exact ih once

theorem find?_isTag {v : Json} (only : (members.filter fun m => m.1 == tag) = [(tag, v)]) :
    (Doc.ofMembers members).find? (Decode.isTag tag) = some (.ok tag, .ofJson v) := by
  induction members with
  | nil => cases only
  | cons m rest ih =>
    obtain ⟨name, w⟩ := m
    by_cases isTag : name = tag
    · subst isTag
      rw [List.filter_cons_of_pos (by simp)] at only
      obtain ⟨⟨-, rfl⟩, -⟩ := List.cons.inj only |>.imp_left Prod.mk.inj
      simp [Doc.ofMembers, Decode.isTag]
    · rw [List.filter_cons_of_neg (by simpa using isTag)] at only
      rw [Doc.ofMembers, List.find?_cons_of_neg (by simpa [Decode.isTag] using isTag)]
      exact ih only

theorem filter_isTag :
    ((Doc.ofMembers members).filter fun m => !Decode.isTag tag m) =
      Doc.ofMembers (members.filter fun m => m.1 != tag) := by
  induction members with
  | nil => rfl
  | cons m rest ih =>
    obtain ⟨name, v⟩ := m
    by_cases isTag : name = tag
    · rw [Doc.ofMembers, List.filter_cons_of_neg (by simpa [Decode.isTag] using isTag),
        List.filter_cons_of_neg (by simpa using isTag), ih]
    · rw [Doc.ofMembers, List.filter_cons_of_pos (by simpa [Decode.isTag] using isTag),
        List.filter_cons_of_pos (by simpa using isTag), Doc.ofMembers, ih]

/-- Behind the tag, a tagged record is read as the variant it names. -/
theorem Reads.tagged {α : Type} {fields : List (String × Option Form)} {a : α}
    {variants : List (String × Decoder α)} {variant : String} {decode : Decoder α} (what : String)
    (known : variants.lookup variant = some decode)
    (once : (tag :: fields.map Prod.fst).Nodup) (h : Reads decode (RecordOf fields) a) :
    Reads (Decode.tagged what tag variants)
      (RecordOf ((tag, some (exactly (.text variant))) :: fields)) a where
  read src v form := by
    obtain @⟨members, filled, extra, written, unknown, order⟩ := form
    obtain ⟨w, only, rfl⟩ := RecordOf.has written unknown order once _ (.head _)
    have faults : Decode.tagFaults tag false 0 (Doc.ofMembers members) = [] :=
      tagFaults_nil (by rw [only]; exact Nat.le_refl 1)
    have others : RecordOf fields (.object (members.filter fun m => m.1 != tag)) := by
      cases written with
      | @written _ _ filled _ _ value rest =>
        have untagged : ∀ m ∈ filled ++ extra, (m.1 != tag) = true := by
          intro m among
          rw [bne_iff_ne]
          rintro rfl
          rcases List.mem_append.mp among with among | among
          · exact (List.nodup_cons.mp once).1 (rest.names.subset (List.mem_map_of_mem among))
          · exact (unknown m among).1 (List.mem_cons_self ..)
        refine .object rest (fun m among => ⟨fun known => ?_, (unknown m among).2⟩) ?_
        · exact (unknown m among).1 (List.mem_cons_of_mem _ known)
        · have kept := order.filter fun m => m.1 != tag
          rwa [List.cons_append, List.filter_cons_of_neg (by simp),
            List.filter_eq_self.mpr untagged] at kept
    have chosen : Decode.tagOf variants (Doc.ofJson (.text variant)) = .ok decode := by
      rw [Doc.ofJson, Decode.tagOf, Decode.lookupVariant, known]
    have read := h.read .buffered _ others
    rw [Doc.ofJson] at read
    rw [Doc.ofJson, Decode.tagged, faults, find?_isTag only, filter_isTag]
    simp only [chosen]
    exact read
  given v form := by
    cases form
    exact Json.noConfusion

theorem Reads.taggedRecord {α : Type} {fields : List (String × Option Form)} {a : α}
    {variants : List (String × Decoder α)} {variant name : String} {x : Fields α} (what : String)
    (known : variants.lookup variant = some (Decode.record name x)) (h : Fits x fields a)
    (distinct : (tag :: x.names).Nodup) :
    Reads (Decode.tagged what tag variants)
      (RecordOf ((tag, some (exactly (.text variant))) :: fields)) a :=
  .tagged what known (h.names ▸ distinct) (.record name h (List.nodup_cons.mp distinct).2)

end Tags

end Ensemble.Json
