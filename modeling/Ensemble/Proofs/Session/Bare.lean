import Ensemble.Run.Summary

/-!
# Sessions without their times

A session and its items remember when they were made, and a session remembers whether the user lets
every tool run. `Session.bare` forgets both. Whatever is added to a session can be added to the bare
one, and views, requests for a summary and the content of messages depend only on it, so sessions
with the same bare session look the same to every model.
-/

namespace Ensemble

open Time (Timestamp)

namespace Session

/-- A moment that stands for every other. -/
def dawn : Timestamp := ⟨⟨1970, 1, 1⟩, 0, 0, 0, 0⟩

def Item.undated : Item → Item
  | .message m => .message { m with createdAt := dawn }
  | .summary text _ => .summary text dawn

def bare (s : Session) : Session :=
  { s with createdAt := dawn, items := s.items.map Item.undated, toolsApproved := false }

/-! ## Items -/

theorem message?_undated (item : Item) :
    item.undated.message? = item.message?.map fun m => { m with createdAt := dawn } := by
  cases item <;> rfl

theorem isAssistant_undated (item : Item) : isAssistant item.undated = isAssistant item := by
  cases item <;> rfl

theorem withUsage_undated (usage : Usage) (cost : Float) (model : String) (item : Item) :
    (item.withUsage usage cost model).undated = item.undated.withUsage usage cost model := by
  cases item <;> rfl

theorem changeLast_map {p : Item → Bool} {f g : Item → Item} (seen : ∀ item, p (g item) = p item)
    (same : ∀ item, g (f item) = f (g item)) (items : List Item) :
    (changeLast p f items).map g = changeLast p f (items.map g) := by
  have skips : (fun item => !p item) ∘ g = fun item => !p item := funext fun item => by
    simp [seen]
  simp only [changeLast, ← List.map_reverse, List.dropWhile_map, List.takeWhile_map, skips]
  cases items.reverse.dropWhile fun item => !p item with
  | nil => rfl
  | cons item before => simp [same]

theorem sinceSummary_map (items : List Item) :
    sinceSummary (items.map Item.undated) =
      ((sinceSummary items).1, (sinceSummary items).2.map Item.undated) := by
  induction items with
  | nil => rfl
  | cons item rest ih =>
    rw [List.map_cons, sinceSummary.eq_def, sinceSummary.eq_def (item :: rest)]
    simp only [ih]
    obtain ⟨latest, tail⟩ := sinceSummary rest
    cases latest <;> cases item <;> rfl

/-! ## What is added to a session -/

theorem bare_add (s : Session) (author : String) (m : Message) (now : Timestamp) :
    (s.add author m now).bare = s.bare.add author m dawn := by
  simp [bare, add, Item.undated]

theorem bare_addSummary (s : Session) (text : String) (now : Timestamp) :
    (s.addSummary text now).bare = s.bare.addSummary text dawn := by
  simp [bare, addSummary, Item.undated]

theorem bare_noteUsage (s : Session) (usage : Usage) (cost : Float) (model : String) :
    (s.noteUsage usage cost model).bare = s.bare.noteUsage usage cost model := by
  simp only [bare, noteUsage,
    changeLast_map isAssistant_undated (withUsage_undated usage cost model)]

theorem bare_recordUsage (s : Session) (usage : Usage) (cost : Float) :
    (s.recordUsage usage cost).bare = s.bare.recordUsage usage cost := rfl

/-! ## What is seen of a session -/

theorem latestSummary_bare (s : Session) : s.bare.latestSummary = s.latestSummary :=
  (congrArg Prod.fst (sinceSummary_map s.items) :)

theorem tail_bare (s : Session) : s.bare.tail = s.tail.map Item.undated :=
  (congrArg Prod.snd (sinceSummary_map s.items) :)

theorem lastContent_bare (s : Session) (role : Role) :
    s.bare.lastContent role = s.lastContent role := by
  have messages : s.bare.messages = s.messages.map fun m => { m with createdAt := dawn } := by
    simp only [messages, bare, List.filterMap_map, List.map_filterMap]
    congr 1
    funext item
    exact message?_undated item
  simp only [lastContent, messages, ← List.map_reverse, List.find?_map, Option.map_map]
  rfl

end Session

open Session

variable {σ : Type} (here : Surroundings) (s : Session) (a : Agent σ) (t : Team σ)

theorem View.narrateItem_undated (viewer : String) (item : Item) :
    narrateItem viewer item.undated = narrateItem viewer item := by
  cases item <;> rfl

theorem View.of_bare : View.of here s.bare a t = View.of here s a t := by
  have said : conversation s.bare a = conversation s a := by
    have same : narrateItem a.name ∘ Item.undated = narrateItem a.name :=
      funext (narrateItem_undated a.name)
    simp only [conversation, tail_bare, List.filterMap_map, same]
  have summary : summaryZone s.bare = summaryZone s := by
    simp only [summaryZone, latestSummary_bare]
  simp only [View.of, said, summary]
  rfl

theorem Summary.request?_bare : Summary.request? here s.bare a t = Summary.request? here s a t := by
  simp only [request?, spoken, View.of_bare, latestSummary_bare]

theorem Summary.commit_bare (m : Model σ) (reading : Reading) (now : Timestamp) :
    (commit m reading s now).1 = (commit m reading s.bare dawn).1 ∧
      (commit m reading s now).2.bare = (commit m reading s.bare dawn).2 := by
  unfold commit
  dsimp only
  split
  · exact ⟨rfl, rfl⟩
  · refine ⟨rfl, ?_⟩
    cases reading.usage with
    | none => exact bare_addSummary s _ now
    | some usage => exact bare_addSummary (s.recordUsage usage (m.costOf usage)) _ now

end Ensemble
