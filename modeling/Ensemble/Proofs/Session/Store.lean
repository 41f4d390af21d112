import Ensemble.Session.Store

/-!
# What a store holds

Each change of a store is described by what is found under an id afterwards.
-/

namespace Ensemble

/-- What is looked for is found at the same place after a change that it does not depend on. -/
theorem find?_map_of_keeps {α : Type} {p : α → Bool} {f : α → α} (keeps : ∀ a, p (f a) = p a)
    (l : List α) : (l.map f).find? p = (l.find? p).map f := by
  have same : p ∘ f = p := funext keeps
  rw [List.find?_map, same]

theorem find?_filter_of_imp {α : Type} {p q : α → Bool} (imp : ∀ a, q a = true → p a = true)
    (l : List α) : (l.filter p).find? q = l.find? q := by
  rw [List.find?_filter]
  congr 1
  funext a
  cases h : q a with
  | true => simp [imp a h]
  | false => simp

namespace Store

variable {st st' : Store}

theorem id_of_get? {id : String} {s : Session} (h : st.get? id = some s) : s.id = id := by
  simpa using List.find?_some h

theorem get_eq_ok {id : String} {s : Session} (h : st.get id = .ok s) : st.get? id = some s := by
  unfold get at h
  split at h
  · rename_i s' found
    cases h
    exact found
  · cases h

theorem get?_add {s : Session} (h : st.add s = .ok st') :
    st.get? s.id = none ∧ ∀ id, st'.get? id = if s.id = id then some s else st.get? id := by
  unfold add at h
  split at h
  · cases h
  rename_i new
  cases h
  have absent : st.get? s.id = none := by simpa using new
  refine ⟨absent, ?_⟩
  intro id
  unfold get? at absent ⊢
  rw [List.find?_append]
  split
  · rename_i same
    subst same
    simp [absent]
  · rename_i other
    simp [other]

theorem update_ok {s : Session} (h : st.update s = .ok st') :
    (st.get? s.id).isSome = true ∧
      st' = ⟨st.sessions.map fun old => if old.id = s.id then s else old⟩ := by
  unfold update at h
  split at h
  · rename_i present
    cases h
    exact ⟨present, rfl⟩
  · cases h

theorem update_error {s : Session} {e : Error} (h : st.update s = .error e) :
    st.get? s.id = none := by
  unfold update at h
  split at h
  · cases h
  · rename_i absent
    simpa using absent

theorem get?_writeBack (st : Store) (s : Session) (id : String) :
    (match st.update s with
      | .ok store => store
      | .error _ => st).get? id =
      if s.id = id then (st.get? id).map fun _ => s else st.get? id := by
  cases updated : st.update s with
  | error e =>
    have absent := update_error updated
    by_cases same : s.id = id
    · subst same
      simp [absent]
    · simp [same]
  | ok st' =>
    obtain ⟨-, rfl⟩ := update_ok updated
    have keeps (old : Session) :
        ((if old.id = s.id then s else old).id == id) = (old.id == id) := by
      by_cases same : old.id = s.id <;> simp [same]
    have mapped : get? ⟨st.sessions.map fun old => if old.id = s.id then s else old⟩ id =
        (st.get? id).map fun old => if old.id = s.id then s else old :=
      find?_map_of_keeps keeps st.sessions
    refine mapped.trans ?_
    cases found : st.get? id with
    | none => simp
    | some old =>
      have stored := id_of_get? found
      by_cases same : s.id = id
      · simp [stored, same]
      · simp [stored, same, Ne.symm same]

theorem present_of_delete {id : String} (h : st.delete id = .ok st') :
    (st.get? id).isSome = true := by
  unfold delete at h
  split at h
  · rename_i present
    exact present
  · cases h

theorem get?_delete {id : String} (h : st.delete id = .ok st') (id' : String) :
    st'.get? id' = if id = id' then none else st.get? id' := by
  unfold delete at h
  split at h
  · cases h
    unfold get?
    by_cases same : id = id'
    · subst same
      simp [List.find?_eq_none]
    · rw [if_neg same]
      apply find?_filter_of_imp
      intro s found
      have stored : s.id = id' := by simpa using found
      simpa [stored] using Ne.symm same
  · cases h

end Store

end Ensemble
