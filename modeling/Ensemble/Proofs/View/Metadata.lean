import Mathlib.Data.List.Forall2
import Ensemble.Proofs.Handoffs

/-!
# Metadata of other agents

What other agents did is told in words, and the words come from what they said and which tools they
called with which arguments. Identifiers, costs, models, marks and times are left out before a
conversation is trimmed, so two sessions that differ in nothing else look the same
(`metadata_hidden`).
-/

namespace Ensemble

structure Message.Alike (m m' : Message) : Prop where
  role : m.role = m'.role
  content : m.content = m'.content
  calls : m.calls.map (fun c => (c.name, c.arguments)) =
    m'.calls.map (fun c => (c.name, c.arguments))

namespace Session

/-- Items that are the same but for the metadata of agents other than the viewer. -/
inductive Item.Alike (viewer : String) : Item → Item → Prop where
  | same (item : Item) : Alike viewer item item
  | foreign {m m' : Authored} (author : m.author = m'.author) (agent : m.author ≠ userAuthor)
      (other : m.author ≠ viewer) (said : m.message.Alike m'.message) :
      Alike viewer (.message m) (.message m')

structure Alike (viewer : String) (s s' : Session) : Prop where
  items : List.Forall₂ (Item.Alike viewer) s.items s'.items
  workingDir : s.workingDir = s'.workingDir

theorem sinceSummary_alike {viewer : String} {items items' : List Item}
    (h : List.Forall₂ (Item.Alike viewer) items items') :
    (sinceSummary items).1 = (sinceSummary items').1 ∧
      List.Forall₂ (Item.Alike viewer) (sinceSummary items).2 (sinceSummary items').2 := by
  induction h with
  | nil => exact ⟨rfl, .nil⟩
  | @cons item item' rest rest' first _ ih =>
    revert ih
    simp only [sinceSummary]
    rcases sinceSummary rest with ⟨latest, tail⟩
    rcases sinceSummary rest' with ⟨latest', tail'⟩
    rintro ⟨same, tails⟩
    cases same
    cases latest with
    | some text => exact ⟨rfl, tails⟩
    | none =>
      cases first with
      | same =>
        cases item with
        | summary text now => exact ⟨rfl, tails⟩
        | message m => exact ⟨rfl, .cons (.same _) tails⟩
      | foreign author agent other said =>
        exact ⟨rfl, .cons (.foreign author agent other said) tails⟩

end Session

namespace View

variable {viewer : String} {m m' : Message}

theorem toldAssistant_alike (h : m.Alike m') (author : String) :
    toldAssistant author m = toldAssistant author m' := by
  have calls (m : Message) : m.calls.map (toldCall author) =
      (m.calls.map fun c => (c.name, c.arguments)).map fun (name, arguments) =>
        toldCall author ⟨"", name, arguments⟩ := by
    rw [List.map_map]
    rfl
  rw [toldAssistant, toldAssistant, h.content, calls, calls, h.calls]

theorem narrate_alike (h : m.Alike m') (author : String) :
    narrate m (.foreign author) = narrate m' (.foreign author) := by
  rw [narrate, narrate, toldAssistant_alike h, h.role, h.content]

theorem narrateItem_alike {item item' : Session.Item} (h : item.Alike viewer item') :
    narrateItem viewer item = narrateItem viewer item' := by
  cases h with
  | same => rfl
  | @foreign m m' author agent other said =>
    have foreign : Authorship.of viewer m.author = .foreign m.author := by
      rw [Authorship.of, if_neg]
      simpa [userAuthor, other] using agent
    rw [narrateItem, narrateItem, ← author, foreign]
    exact narrate_alike said m.author

theorem filterMap_alike {items items' : List Session.Item}
    (h : List.Forall₂ (Session.Item.Alike viewer) items items') :
    items.filterMap (narrateItem viewer) = items'.filterMap (narrateItem viewer) := by
  induction h with
  | nil => rfl
  | cons first _ ih => rw [List.filterMap_cons, List.filterMap_cons, narrateItem_alike first, ih]

variable {σ : Type} {s s' : Session}

theorem conversation_alike {a : Agent σ} (h : s.Alike a.name s') :
    conversation s a = conversation s' a := by
  have told : s.tail.filterMap (narrateItem a.name) = s'.tail.filterMap (narrateItem a.name) :=
    filterMap_alike (Session.sinceSummary_alike h.items).2
  unfold conversation
  rw [told]

/-- What an agent sees does not depend on the metadata of other agents, however much of the
conversation it is shown. -/
theorem metadata_hidden (here : Surroundings) (a : Agent σ) (t : Team σ)
    (h : s.Alike a.name s') : View.of here s a t = View.of here s' a t := by
  have latest : s.latestSummary = s'.latestSummary := (Session.sinceSummary_alike h.items).1
  have context : contextZone here s a = contextZone here s' a := by
    rw [contextZone, contextZone, h.workingDir]
  have summary : summaryZone s = summaryZone s' := by rw [summaryZone, summaryZone, latest]
  rw [View.of, View.of, context, summary, conversation_alike h]

end View

/-! ## A sample

The helper makes a call and gets its result. -/

namespace Sample

def helped (id : String) (usage : Option Usage) : Session :=
  { session with items := [
      .message ⟨userAuthor, .user "go", noon⟩,
      .message ⟨"helper", { Message.assistant "" [call id] with usage }, noon⟩,
      .message ⟨"helper", .toolResult id "touched", noon⟩,
      .message ⟨"root", .assistant "done", noon⟩] }

theorem helped_alike (id id' : String) (usage usage' : Option Usage) :
    (helped id usage).Alike "root" (helped id' usage') := by
  have helper : "helper" ≠ userAuthor ∧ "helper" ≠ "root" := by decide
  refine ⟨.cons (.same _) (.cons ?_ (.cons ?_ (.cons (.same _) .nil))), rfl⟩
  · exact .foreign rfl helper.1 helper.2 ⟨rfl, rfl, rfl⟩
  · exact .foreign rfl helper.1 helper.2 ⟨rfl, rfl, rfl⟩

end Sample

theorem View.metadata_hidden_sample :
    let viewer := { Sample.member "root" ["root", "helper"] with historyLimit := some 2 }
    let here : Surroundings := { today := "2026-01-01", directory := "/" }
    let s := Sample.helped "1" none
    let s' := Sample.helped "2" (some .zero)
    s.Alike viewer.name s' ∧
      s.messages.map (·.message.toolCallId) ≠ s'.messages.map (·.message.toolCallId) ∧
      View.of here s viewer Sample.pair = View.of here s' viewer Sample.pair := by
  intro viewer here s s'
  have alike : s.Alike viewer.name s' := Sample.helped_alike "1" "2" none (some .zero)
  exact ⟨alike, by decide, View.metadata_hidden here viewer Sample.pair alike⟩

end Ensemble
