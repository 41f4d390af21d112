import Ensemble.Json.Decode

/-!
# Sorted members

`sortMembers` gives members sorted by name with no name twice (`sorted_sortMembers`), and leaves
such members as they are (`sortMembers_eq`). Sorted members are known by what is found under each
name (`Sorted.ext`).
-/

namespace Ensemble.Json

def Sorted {α : Type} (members : List (String × α)) : Prop :=
  members.Pairwise fun m n => m.1 < n.1

variable {α : Type} {members : List (String × α)}

theorem Sorted.nodup (h : Sorted members) : (members.map Prod.fst).Nodup := by
  refine List.pairwise_map.mpr (h.imp fun before same => ?_)
  rw [same] at before
  exact String.lt_irrefl _ before

theorem mem_insert {name : String} {value : α} {m : String × α}
    (h : m ∈ insert name value members) : m.1 = name ∨ m ∈ members := by
  induction members with
  | nil => exact .inl (congrArg Prod.fst (List.mem_singleton.mp h))
  | cons n rest ih =>
    obtain ⟨other, v⟩ := n
    rw [insert] at h
    split at h
    · rcases List.mem_cons.mp h with rfl | later
      · exact .inl rfl
      · exact .inr later
    split at h
    · rcases List.mem_cons.mp h with rfl | later
      · exact .inl rfl
      · exact .inr (.tail _ later)
    · rcases List.mem_cons.mp h with rfl | later
      · exact .inr (.head _)
      · rcases ih later with same | among
        · exact .inl same
        · exact .inr (.tail _ among)

theorem Sorted.insert (h : Sorted members) (name : String) (value : α) :
    Sorted (insert name value members) := by
  induction members with
  | nil => exact List.pairwise_singleton _ _
  | cons n rest ih =>
    obtain ⟨other, v⟩ := n
    obtain ⟨first, later⟩ := List.pairwise_cons.mp h
    rw [Json.insert]
    split
    · rename_i before
      refine List.pairwise_cons.mpr ⟨fun m among => ?_, h⟩
      rcases List.mem_cons.mp among with rfl | among
      · exact before
      · exact String.lt_trans before (first m among)
    split
    · rename_i same
      subst same
      exact List.pairwise_cons.mpr ⟨first, later⟩
    · rename_i notBefore differs
      have behind : other < name := by
        rcases Std.lt_trichotomy name other with before | same | behind
        · exact absurd before notBefore
        · exact absurd same differs
        · exact behind
      refine List.pairwise_cons.mpr ⟨fun m among => ?_, ih later⟩
      rcases mem_insert among with same | among
      · exact same ▸ behind
      · exact first m among

theorem lookup_cons_eq (m : String × α) (rest : List (String × α)) (name : String) :
    (m :: rest).lookup name = if name = m.1 then some m.2 else rest.lookup name := by
  obtain ⟨n, v⟩ := m
  by_cases same : name = n
  · rw [same, List.lookup_cons_self, if_pos rfl]
  · rw [List.lookup_cons, beq_false_of_ne same, if_neg same]

/-- Sorted or not, what is put under a name is found there, and nothing else changes. -/
theorem lookup_insert (name : String) (value : α) (members : List (String × α)) (other : String) :
    (insert name value members).lookup other =
      if other = name then some value else members.lookup other := by
  induction members with
  | nil => rw [insert, lookup_cons_eq]
  | cons m rest ih =>
    obtain ⟨n, v⟩ := m
    rw [insert]
    split
    · rw [lookup_cons_eq]
    split
    · rename_i same
      subst same
      rw [lookup_cons_eq, lookup_cons_eq]
      split <;> rfl
    · rename_i differs
      rw [lookup_cons_eq, lookup_cons_eq, ih]
      by_cases here : other = n
      · have differs : ¬ other = name := fun same => differs (same.symm.trans here)
        rw [if_pos here, if_neg differs, if_pos here]
      · rw [if_neg here, if_neg here]

theorem Sorted.lookup_eq_some_iff (h : Sorted members) {name : String} {value : α} :
    members.lookup name = some value ↔ (name, value) ∈ members := by
  induction members with
  | nil => simp
  | cons m rest ih =>
    obtain ⟨first, later⟩ := List.pairwise_cons.mp h
    rw [lookup_cons_eq, List.mem_cons]
    by_cases same : name = m.1
    · subst same
      have absent : (m.1, value) ∉ rest := fun among =>
        String.lt_irrefl _ (first (m.1, value) among)
      simp [absent, Prod.ext_iff, eq_comm]
    · rw [if_neg same, ih later]
      simp [same, Prod.ext_iff]

theorem Sorted.ext {members' : List (String × α)} (h : Sorted members) (h' : Sorted members')
    (same : ∀ name, members.lookup name = members'.lookup name) : members = members' := by
  have distinct {ms : List (String × α)} (h : Sorted ms) : ms.Nodup := by
    refine h.imp fun before same => ?_
    rw [same] at before
    exact String.lt_irrefl _ before
  have perm : members.Perm members' := by
    apply (List.perm_ext_iff_of_nodup (distinct h) (distinct h')).mpr
    intro m
    rw [← h.lookup_eq_some_iff, ← h'.lookup_eq_some_iff, same]
  apply List.Perm.eq_of_pairwise _ h h' perm
  intro m n _ _ before after
  exact absurd (String.lt_trans before after) (String.lt_irrefl _)

theorem sorted_sortMembers (members : List (String × α)) : Sorted (sortMembers members) := by
  have each (ms acc : List (String × α)) (h : Sorted acc) :
      Sorted (ms.foldl (fun acc m => Json.insert m.1 m.2 acc) acc) := by
    induction ms generalizing acc with
    | nil => exact h
    | cons m ms ih => exact ih _ (h.insert m.1 m.2)
  exact each members [] List.Pairwise.nil

theorem insert_last {name : String} (value : α) (behind : ∀ m ∈ members, m.1 < name) :
    insert name value members = members ++ [(name, value)] := by
  induction members with
  | nil => rfl
  | cons n rest ih =>
    obtain ⟨other, v⟩ := n
    have before : other < name := behind _ (.head _)
    have later := ih fun m among => behind m (.tail _ among)
    have notBefore : ¬ name < other := fun after =>
      String.lt_irrefl _ (String.lt_trans before after)
    rw [insert, if_neg notBefore, if_neg, later]
    · rfl
    · rintro rfl
      exact String.lt_irrefl _ before

theorem sortMembers_eq (h : Sorted members) : sortMembers members = members := by
  have each (ms acc : List (String × α)) (sorted : Sorted (acc ++ ms)) :
      ms.foldl (fun acc m => Json.insert m.1 m.2 acc) acc = acc ++ ms := by
    induction ms generalizing acc with
    | nil => rw [List.foldl_nil, List.append_nil]
    | cons m ms ih =>
      have behind : ∀ n ∈ acc, n.1 < m.1 := fun n among =>
        (List.pairwise_append.mp sorted).2.2 n among m (.head _)
      have last := insert_last m.2 behind
      rw [List.foldl_cons, last, ih, List.append_assoc]
      · rfl
      · rwa [List.append_assoc]
  exact each members [] h

end Ensemble.Json
