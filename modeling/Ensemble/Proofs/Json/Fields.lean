import Ensemble.Proofs.Json.Bounds
import Ensemble.Proofs.Json.Records

/-!
# What a record is read from

`Reads` says which values are read as a record. Here is the converse: fields are read just when
their members are (`read_seq_iff`, `read_required_iff`, `read_defaulted_iff`), so a record that is
read of an object or of an array has them there (`record_object_iff`, `record_array_iff`).
-/

namespace Ensemble.Json

variable {α β : Type} {src : Source} {ms : Members} {a : α} {b : β} {name : String}

def Members.given? (ms : Members) (name : String) : Option Doc := (ms.find? name).map Prod.snd

/-! ## Fields -/

namespace Fields

theorem read_map_iff {f : α → β} {x : Fields α} :
    (f <$> x).read src ms = .ok b ↔ ∃ a, x.read src ms = .ok a ∧ f a = b := by
  constructor
  · exact map_eq_ok
  · rintro ⟨a, read, rfl⟩
    exact congrArg (Except.map f) read

theorem read_seq_iff {f : Fields (α → β)} {x : Fields α} :
    (f <*> x).read src ms = .ok b ↔
      ∃ g a, f.read src ms = .ok g ∧ x.read src ms = .ok a ∧ g a = b := by
  simp only [Seq.seq, Fields.seq]
  cases f.read src ms <;> cases x.read src ms <;> simp

theorem decodeAt_iff {decode : Decoder α} {index : Nat} {d : Doc} :
    decodeAt decode src index d = .ok a ↔ decode src d = .ok a := by
  unfold decodeAt
  split <;> simp_all

theorem read_required_iff {decode : Decoder α} :
    (required name decode).read src ms = .ok a ↔
      ∃ d, ms.given? name = some d ∧ decode src d = .ok a := by
  simp only [required, Members.given?]
  cases ms.find? name with
  | none => simp
  | some found => simp [decodeAt_iff]

theorem read_defaulted_iff {default : α} {decode : Decoder α} :
    (defaulted name default decode).read src ms = .ok a ↔
      (∃ d, ms.given? name = some d ∧ decode src d = .ok a) ∨
        ms.given? name = none ∧ default = a := by
  simp only [defaulted, Members.given?]
  cases ms.find? name with
  | none => simp
  | some found => simp [decodeAt_iff]

end Fields

theorem text_ofJson_iff {v : Json} {s : String} :
    Decode.text src (.ofJson v) = .ok s ↔ v = .text s := by
  cases v <;> simp [Decode.text, Decode.textAs, Doc.ofJson, refuse_ne_ok]

theorem text_member_iff {member : Option Json} {s : String} :
    (∃ d, member.map Doc.ofJson = some d ∧ Decode.text src d = .ok s) ↔
      member = some (.text s) := by
  constructor
  · rintro ⟨d, there, read⟩
    obtain ⟨v, rfl, rfl⟩ := Option.map_eq_some_iff.mp there
    rw [text_ofJson_iff.mp read]
  · rintro rfl
    exact ⟨.text s, rfl, rfl⟩

/-! ## Members -/

def Members.ofObject (members : List (String × Json)) : Members :=
  ⟨Decode.entriesOf 0 (Doc.ofMembers members), false, fun name => .data (.missing name)⟩

theorem given?_ofObject (members : List (String × Json)) (name : String) :
    (Members.ofObject members).given? name = (members.lookup name).map Doc.ofJson := by
  have found (index : Nat) :
      ((Decode.entriesOf index (Doc.ofMembers members)).find? (fun e => e.2.1 == name)).map
        (fun e => e.2.2) = (members.lookup name).map Doc.ofJson := by
    induction members generalizing index with
    | nil => rfl
    | cons m rest ih =>
      obtain ⟨other, v⟩ := m
      rw [Doc.ofMembers, Decode.entriesOf]
      by_cases same : other = name
      · subst same
        simp
      · rw [List.find?_cons_of_neg (by simpa using same), ih]
        simp [List.lookup_cons, beq_false_of_ne (Ne.symm same)]
  rw [Members.given?, Members.find?, Option.map_map]
  exact found 0

/-- The elements of an array take the names in their order. -/
theorem given?_positions {names : List String} (distinct : names.Nodup) (items : List Json)
    {positional : Bool} {missing : String → Error} {i : Nat} (here : names[i]? = some name) :
    (Members.mk (Decode.positions names (Doc.ofItems items)) positional missing).given? name =
      items[i]?.map Doc.ofJson := by
  have found (index : Nat) :
      ((((names.zip (Doc.ofItems items)).zipIdx index).map fun e =>
        (e.2, e.1.1, e.1.2)).find? (fun e => e.2.1 == name)).map (fun e => e.2.2) =
        items[i]?.map Doc.ofJson := by
    induction names generalizing items i index with
    | nil => cases here
    | cons first names ih =>
      obtain ⟨fresh, distinct⟩ := List.nodup_cons.mp distinct
      cases items with
      | nil => rfl
      | cons v rest =>
        cases i with
        | zero =>
          cases here
          simp [Doc.ofItems]
        | succ i =>
          have differs : first ≠ name := fun same => fresh (same ▸ List.mem_of_getElem? here)
          rw [Doc.ofItems, List.zip_cons_cons, List.zipIdx_cons, List.map_cons,
            List.find?_cons_of_neg (by simpa using differs)]
          exact ih distinct rest here (index + 1)
  rw [Members.given?, Members.find?, Option.map_map]
  exact found 0

/-! ## Records -/

theorem settle_nil {r : Except MemberFault α} : Decode.settle [] r = .ok a ↔ r = .ok a := by
  cases r <;> simp [Decode.settle, Decode.earliest]

theorem settle_cons {fault : MemberFault} {faults : List MemberFault} {r : Except MemberFault α} :
    Decode.settle (fault :: faults) r ≠ .ok a := by
  cases r <;> simp [Decode.settle, Decode.earliest]

theorem record_object_iff (what : String) (fields : Fields α) {members : List (String × Json)}
    (once : (members.map Prod.fst).Nodup) :
    Decode.record what fields src (.ofJson (.object members)) = .ok a ↔
      fields.read src (.ofObject members) = .ok a := by
  have faults : Decode.memberFaults fields.names [] 0 (Doc.ofMembers members) = [] :=
    memberFaults_nil (once.filter _) nofun
  rw [Doc.ofJson, Decode.record, faults]
  exact settle_nil

theorem record_array_iff (what : String) (fields : Fields α) {items : List Json} :
    Decode.record what fields .value (.ofJson (.array items)) = .ok a ↔
      items.length ≤ fields.names.length ∧
        fields.read .value ⟨Decode.positions fields.names (Doc.ofItems items), true, fun name =>
          .data (.length (fields.names.idxOf name)
            (what ++ " with " ++ Decode.countOf fields.names.length "element"))⟩ = .ok a := by
  have size : (Doc.ofItems items).length = items.length := by
    induction items with
    | nil => rfl
    | cons v rest ih => rw [Doc.ofItems, List.length_cons, ih, List.length_cons]
  rw [Doc.ofJson, Decode.record]
  simp only [Decode.surplusFaults, size]
  by_cases fits : items.length ≤ fields.names.length
  · rw [if_neg (Nat.not_lt.mpr fits)]
    exact settle_nil.trans (and_iff_right fits).symm
  · rw [if_pos (Nat.lt_of_not_le fits)]
    exact iff_of_false settle_cons fun h => fits h.1

theorem record_other (what : String) (fields : Fields α) {d : Doc}
    (object : ∀ ms tail, d ≠ .object ms tail) (array : ∀ ds tail, d ≠ .array ds tail) :
    Decode.record what fields src d ≠ .ok a := by
  rw [Decode.record]
  · exact refuse_ne_ok _ _ _
  · exact object
  · exact array

/-! ## Texts -/

theorem toJson_of_parse {s : String} {v : Json} (h : parse s = .ok v) :
    (Document.read s).root.toJson = .ok v := by
  obtain ⟨w, read, h⟩ := bind_eq_ok h
  obtain ⟨-, -, same⟩ := bind_eq_ok h
  cases same
  rw [Decode.any] at read
  cases value : (Document.read s).root.toJson with
  | error e =>
    rw [value] at read
    cases read
  | ok w =>
    rw [value] at read
    cases read
    rfl

/-- An object that is read of a text has its members in order, and no name twice. -/
theorem sorted_of_parse {s : String} {members : List (String × Json)}
    (h : parse s = .ok (.object members)) : Sorted members := by
  have value := toJson_of_parse h
  generalize (Document.read s).root = root at value
  cases root with
  | object ms tail =>
    obtain ⟨written, -, value⟩ := bind_eq_ok value
    obtain ⟨-, -, same⟩ := bind_eq_ok value
    cases same
    exact sorted_sortMembers written
  | array items tail =>
    obtain ⟨written, -, value⟩ := bind_eq_ok value
    obtain ⟨-, -, same⟩ := bind_eq_ok value
    cases same
  | null | bool | number | text | guarded | broken => cases value

end Ensemble.Json
