import Ensemble.Run.Reply

/-!
# What is put together of a reply

`Assembly.takeAll` takes the deltas of a reply one after the other. It is what a run does with a
reply as long as nobody cancels it.
-/

namespace Ensemble

namespace Assembly

def takeAll (a : Assembly) (deltas : List Model.Delta) : Except Interruption Assembly :=
  deltas.foldlM take a

theorem takeAll_cons_ok {a a' : Assembly} {d : Model.Delta} (took : a.take d = .ok a')
    (later : List Model.Delta) : a.takeAll (d :: later) = a'.takeAll later := by
  rw [takeAll, List.foldlM_cons, took]
  rfl

/-- A fragment for the identifier of the last call is appended to that call. -/
theorem extendCall_concat (front : List ToolCall) (c : ToolCall) (fragment : String) :
    extendCall c.id fragment (front ++ [c]) =
      front ++ [{ c with arguments := c.arguments ++ fragment }] := by
  induction front with
  | nil => simp [extendCall]
  | cons first front ih =>
    rw [List.cons_append, extendCall, if_pos (by simp), ih, List.cons_append]

theorem takeAll_text (a : Assembly) (t : String) (later : List Model.Delta) :
    a.takeAll (.text t :: later) = { a with text := a.text ++ t }.takeAll later :=
  takeAll_cons_ok rfl later

/-- A call that is begun, described and ended is the next one. -/
theorem takeAll_call (a : Assembly) (c : ToolCall) (later : List Model.Delta) :
    a.takeAll (.callStart c.id c.name :: .callDelta c.id c.arguments :: .callEnd c.id :: later) =
      { a with calls := a.calls ++ [c] }.takeAll later := by
  have described := extendCall_concat a.calls ⟨c.id, c.name, ""⟩ c.arguments
  rw [String.empty_append] at described
  rw [takeAll_cons_ok rfl, takeAll_cons_ok rfl, takeAll_cons_ok rfl, described]

end Assembly

namespace Intake

theorem takeAll_of_take {i i' : Intake} {d : Model.Delta} (took : i.take d = .ok i')
    (later : List Model.Delta) : i.assembly.takeAll (d :: later) = i'.assembly.takeAll later := by
  unfold take at took
  cases first : i.assembly.take d with
  | error why =>
    rw [first] at took
    cases took
  | ok a =>
    rw [first] at took
    cases took
    exact Assembly.takeAll_cons_ok first later

theorem read_of_takeAll {i : Intake} (new : i.interruption = none)
    (uncancelled : i.cancel.requested = false) (blind : i.cancel.looks = none)
    {deltas : List Model.Delta} {a : Assembly} (took : i.assembly.takeAll deltas = .ok a) :
    (i.read (deltas.map fun d => .item (.ok d) false)).interruption = none := by
  induction deltas generalizing i with
  | nil =>
    rw [List.map_nil, read]
    simp only [look, Cancellation.look, blind, uncancelled, new, Bool.false_eq_true, if_false]
  | cons d deltas ih =>
    obtain ⟨first, now, later⟩ : ∃ first, i.assembly.take d = .ok first ∧
        first.takeAll deltas = .ok a := by
      cases now : i.assembly.take d with
      | error why =>
        rw [Assembly.takeAll, List.foldlM_cons, now] at took
        cases took
      | ok first =>
        rw [Assembly.takeAll, List.foldlM_cons, now] at took
        exact ⟨first, rfl, took⟩
    rw [List.map_cons, read]
    simp only [look, Cancellation.look, blind, uncancelled, take, now, Except.map,
      Bool.false_eq_true, if_false]
    exact ih new (by rw [Cancellation.request, uncancelled]; rfl) blind later

end Intake

end Ensemble
