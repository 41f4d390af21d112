import Ensemble.Proofs.Growth
import Ensemble.Proofs.Requests

/-!
# Summaries while others write

A summary is made in steps (`Summary.Makes`), and between any two of them others may add messages
to the session (`Summary.Goes`). It looks at the session once, before it asks, and adds itself at
the very end. So what is said falls into three parts (`Summary.Moment`): what is said before it
looks, which is told; what is said meanwhile, which is not; and what is said after it.

Whatever stands before a summary is out of view (`Summary.Progress.conversation`). That covers the
first part and the second alike, and in the first part also what the user has said in the role of
the system, which no summary tells.
-/

namespace Ensemble

open Session (Item)
open View (Authorship narrateItem)

variable {σ : Type}

namespace Summary

def hear (c : Cancellation) (acc : Reading) :
    Model.Step → Except (ModelError ⊕ String) Reading × Cancellation
  | .wait time =>
    let c := c.look.wait time
    (if c.requested then .error (.inl .cancelled) else .ok acc, c)
  | .checked d =>
    let c := c.look
    (if c.requested then .error (.inl .cancelled) else (acc.take d).mapError .inr, c)
  | .item (.ok d) cancels => ((acc.take d).mapError .inr, c.request cancels)
  | .item (.error e) cancels => (.error (.inl e), c.request cancels)

theorem read_cons (c : Cancellation) (acc : Reading) (step : Model.Step)
    (rest : List Model.Step) :
    read c acc (step :: rest) = match hear c acc step with
      | (.ok acc, c) => read c acc rest
      | (.error e, c) => (.error e, c) := by
  cases step with
  | wait time =>
    simp only [read, hear]
    cases (c.look.wait time).requested <;> rfl
  | checked d =>
    simp only [read, hear]
    cases c.look.requested
    · cases acc.take d <;> rfl
    · rfl
  | item reply cancels =>
    cases reply with
    | error e => rfl
    | ok d =>
      simp only [read, hear]
      cases acc.take d <;> rfl

inductive Stage where
  | opening
  | asking (request : Model.Request)
  | hearing (request : Model.Request) (acc : Reading) (rest : List Model.Step)
  | closed (request : Option Model.Request) (outcome : Except Error (Option String))

/-- A summary that is being made, with the session that others write to meanwhile. -/
structure Making (σ : Type) where
  session : Session
  cancel : Cancellation
  world : σ
  stage : Stage

/-- The steps of a summary. It looks at the session once, before it asks, and writes to it once, at
its end. -/
inductive Makes (setup : Setup σ) (a : Agent σ) : Making σ → Making σ → Prop where
  | nothing {s : Session} {c : Cancellation} {world : σ}
      (empty : request? setup.here s a setup.team = none) :
      Makes setup a ⟨s, c, world, .opening⟩ ⟨s, c, world, .closed none (.ok none)⟩
  | looked {s : Session} {c : Cancellation} {world : σ} {request : Model.Request}
      (asks : request? setup.here s a setup.team = some request) :
      Makes setup a ⟨s, c, world, .opening⟩ ⟨s, c, world, .asking request⟩
  | refused {s : Session} {c : Cancellation} {world world' : σ} {request : Model.Request}
      {e : ModelError} (reply : a.model.complete c.look.requested request world = (.error e, world')) :
      Makes setup a ⟨s, c, world, .asking request⟩
        ⟨s, c.look, world', .closed (some request) (.error (e.toError a.model.name))⟩
  | answered {s : Session} {c : Cancellation} {world world' : σ} {request : Model.Request}
      {steps : List Model.Step}
      (reply : a.model.complete c.look.requested request world = (.ok steps, world')) :
      Makes setup a ⟨s, c, world, .asking request⟩ ⟨s, c.look, world', .hearing request {} steps⟩
  | heard {s : Session} {c c' : Cancellation} {world : σ} {request : Model.Request}
      {acc acc' : Reading} {step : Model.Step} {rest : List Model.Step}
      (took : hear c acc step = (.ok acc', c')) :
      Makes setup a ⟨s, c, world, .hearing request acc (step :: rest)⟩
        ⟨s, c', world, .hearing request acc' rest⟩
  | broke {s : Session} {c c' : Cancellation} {world : σ} {request : Model.Request} {acc : Reading}
      {step : Model.Step} {rest : List Model.Step} {e : ModelError ⊕ String}
      (failed : hear c acc step = (.error e, c')) :
      Makes setup a ⟨s, c, world, .hearing request acc (step :: rest)⟩
        ⟨s, c', world, .closed (some request) (.error (errorOf a.model.name e))⟩
  | committed {s : Session} {c : Cancellation} {world : σ} {request : Model.Request}
      {acc : Reading} :
      Makes setup a ⟨s, c, world, .hearing request acc []⟩
        ⟨(commit a.model acc s setup.now).2, c, world,
          .closed (some request) (.ok (commit a.model acc s setup.now).1)⟩

/-- When something is said, as the summary sees it. -/
inductive Moment where
  | before
  | meanwhile
  | after
deriving DecidableEq

@[simp] def Stage.moment : Stage → Moment
  | .opening => .before
  | .asking _ | .hearing .. => .meanwhile
  | .closed .. => .after

/-- Steps of a summary, and between them messages that others add to the session. -/
inductive Goes (setup : Setup σ) (a : Agent σ) :
    Making σ → List (Moment × Authored) → Making σ → Prop where
  | refl (x : Making σ) : Goes setup a x [] x
  | step {x y z : Making σ} {said : List (Moment × Authored)} (h : Goes setup a x said y)
      (makes : Makes setup a y z) : Goes setup a x said z
  | say {x y : Making σ} {said : List (Moment × Authored)} (h : Goes setup a x said y)
      (m : Authored) :
      Goes setup a x (said ++ [(y.stage.moment, m)])
        { y with session := y.session.add m.author m.message m.createdAt }

theorem Goes.trans {setup : Setup σ} {a : Agent σ} {x y z : Making σ}
    {said more : List (Moment × Authored)} (h : Goes setup a x said y)
    (h' : Goes setup a y more z) : Goes setup a x (said ++ more) z := by
  induction h' with
  | refl => rwa [List.append_nil]
  | step _ makes ih => exact ih.step makes
  | say _ m ih =>
    rw [← List.append_assoc]
    exact ih.say m

theorem goes_read (setup : Setup σ) (a : Agent σ) (s : Session) (world : σ)
    (request : Model.Request) (c : Cancellation) (acc : Reading) (steps : List Model.Step) :
    Goes setup a ⟨s, c, world, .hearing request acc steps⟩ []
      (match read c acc steps with
      | (.ok reading, c') => ⟨(commit a.model reading s setup.now).2, c', world,
          .closed (some request) (.ok (commit a.model reading s setup.now).1)⟩
      | (.error e, c') =>
        ⟨s, c', world, .closed (some request) (.error (errorOf a.model.name e))⟩) := by
  induction steps generalizing c acc with
  | nil => exact .step (.refl _) .committed
  | cons step rest ih =>
    rw [read_cons]
    cases took : hear c acc step with
    | mk reading c' =>
      cases reading with
      | ok acc' =>
        have first : Goes setup a ⟨s, c, world, .hearing request acc (step :: rest)⟩ []
            ⟨s, c', world, .hearing request acc' rest⟩ := .step (.refl _) (.heard took)
        exact first.trans (ih c' acc')
      | error e => exact .step (.refl _) (.broke took)

end Summary

open Summary

/-- `summarize` takes these steps, and nobody says anything between them. -/
theorem Setup.summarize_goes (setup : Setup σ) (s : Session) {agent : String} {a : Agent σ}
    (found : setup.team.agent agent = .ok a) (c : Cancellation) (world : σ) :
    let result := setup.summarize s agent c world
    ∃ request, Goes setup a ⟨s, c, world, .opening⟩ []
      ⟨result.session, result.cancel, result.world, .closed request result.outcome⟩ := by
  cases asks : Summary.request? setup.here s a setup.team with
  | none =>
    simp only [Setup.summarize, found, asks]
    exact ⟨none, .step (.refl _) (.nothing asks)⟩
  | some request =>
    have looked : Goes setup a ⟨s, c, world, .opening⟩ [] ⟨s, c, world, .asking request⟩ :=
      .step (.refl _) (.looked asks)
    cases reply : a.model.complete c.look.requested request world with
    | mk answer world' =>
      cases answer with
      | error e =>
        simp only [Setup.summarize, found, asks, reply]
        exact ⟨some request, looked.step (.refused reply)⟩
      | ok steps =>
        have all := (looked.step (.answered reply)).trans
          (goes_read setup a s world' request c.look {} steps)
        cases heard : Summary.read c.look {} steps with
        | mk reading c' =>
          rw [heard] at all
          cases reading with
          | error e =>
            simp only [Setup.summarize, found, asks, reply, heard]
            exact ⟨some request, all⟩
          | ok reading =>
            simp only [Setup.summarize, found, asks, reply, heard]
            exact ⟨some request, all⟩

/-! ## What is summarised, and what is hidden -/

def Session.plus (s : Session) (ms : List Authored) : Session :=
  { s with items := s.items ++ ms.map .message }

namespace Summary

def saidAt (moment : Moment) (said : List (Moment × Authored)) : List Authored :=
  said.filterMap fun entry => if entry.1 = moment then some entry.2 else none

theorem saidAt_concat (moment when : Moment) (said : List (Moment × Authored)) (m : Authored) :
    saidAt moment (said ++ [(when, m)]) =
      saidAt moment said ++ if when = moment then [m] else [] := by
  unfold saidAt
  rw [List.filterMap_append]
  by_cases now : when = moment <;> simp [now]

theorem mem_saidAt {moment : Moment} {said : List (Moment × Authored)} {m : Authored} :
    m ∈ saidAt moment said ↔ (moment, m) ∈ said := by
  simp [saidAt]

namespace Stage

@[simp] def added? (now : Time.Timestamp) : Stage → Option Item
  | .closed _ (.ok (some text)) => some (.summary text now)
  | _ => none

def request? : Stage → Option Model.Request
  | .opening => none
  | .asking request | .hearing request .. => some request
  | .closed request _ => request

end Stage

/-- What has become of the session and the request when `said` was said. -/
structure Progress (setup : Setup σ) (a : Agent σ) (s : Session) (said : List (Moment × Authored))
    (x : Making σ) : Prop where
  items : x.session.items = s.items ++ (saidAt .before said).map .message ++
    (saidAt .meanwhile said).map .message ++ (x.stage.added? setup.now).toList ++
      (saidAt .after said).map .message
  opening : x.stage = .opening → x.session = s.plus (saidAt .before said)
  request : x.stage ≠ .opening →
    x.stage.request? = Summary.request? setup.here (s.plus (saidAt .before said)) a setup.team
  silent : x.stage.moment ≠ .after → saidAt .after said = []
  quiet : x.stage.moment = .before → saidAt .meanwhile said = []

variable {setup : Setup σ} {a : Agent σ} {s : Session} {said : List (Moment × Authored)}
  {x y : Making σ}

theorem commit_items (m : Model σ) (reading : Reading) (s : Session) (now : Time.Timestamp)
    (request : Option Model.Request) :
    (commit m reading s now).2.items =
      s.items ++ ((Stage.closed request (.ok (commit m reading s now).1)).added? now).toList := by
  unfold commit
  dsimp only
  split
  · exact (List.append_nil _).symm
  · cases reading.usage <;> rfl

theorem Progress.step (h : Progress setup a s said x) (makes : Makes setup a x y) :
    Progress setup a s said y := by
  obtain ⟨items, opening, request, silent, quiet⟩ := h
  cases makes with
  | nothing empty =>
    refine ⟨items, by simp, ?_, fun _ => silent (by simp), by simp⟩
    intro _
    rw [← opening rfl, empty]
    rfl
  | looked asks =>
    refine ⟨items, by simp, ?_, fun _ => silent (by simp), by simp⟩
    intro _
    rw [← opening rfl, asks]
    rfl
  | refused | answered | heard | broke =>
    exact ⟨items, by simp, fun _ => request (by simp), fun _ => silent (by simp), by simp⟩
  | @committed s' c world asked acc =>
    have none : saidAt .after said = [] := silent (by simp)
    refine ⟨?_, by simp, fun _ => request (by simp), fun _ => none, by simp⟩
    rw [commit_items a.model acc s' setup.now asked, items, none]
    simp

theorem Progress.say (h : Progress setup a s said x) (m : Authored) :
    Progress setup a s (said ++ [(x.stage.moment, m)])
      { x with session := x.session.add m.author m.message m.createdAt } := by
  obtain ⟨items, opening, request, silent, quiet⟩ := h
  cases stage : x.stage with
  | opening =>
    rw [stage] at items silent quiet request
    have none : saidAt .after said = [] := silent (by simp)
    have still : saidAt .meanwhile said = [] := quiet rfl
    constructor
    · simp [saidAt_concat, items, none, still]
    · intro _
      simp [opening stage, saidAt_concat, Session.plus, Session.add]
    · simp
    · simp [saidAt_concat, none]
    · simp [saidAt_concat, still]
  | asking | hearing =>
    rw [stage] at items silent request
    have none : saidAt .after said = [] := silent (by simp)
    constructor
    · simp [saidAt_concat, items, none]
    · simp
    · simpa [saidAt_concat] using request
    · simp [saidAt_concat, none]
    · simp
  | closed =>
    rw [stage] at items request
    constructor
    · simp [saidAt_concat, items]
    · simp
    · simpa [saidAt_concat] using request
    · simp
    · simp

theorem Goes.progress {c : Cancellation} {world : σ}
    (h : Goes setup a ⟨s, c, world, .opening⟩ said x) : Progress setup a s said x := by
  generalize begun : (⟨s, c, world, .opening⟩ : Making σ) = first at h
  induction h with
  | refl =>
    subst begun
    constructor <;> simp [saidAt, Session.plus]
  | step _ makes ih => exact ih.step makes
  | say _ m ih => exact ih.say m

def appear (a : Agent σ) (ms : List Authored) : List Message :=
  (ms.map Item.message).filterMap (narrateItem a.name)

theorem spoken_eq (here : Surroundings) (s : Session) (a : Agent σ) (t : Team σ) :
    spoken here s a t = (View.conversation s a).filter fun m => m.role ≠ .system := by
  have zones := View.zones_system here s a t
  rw [spoken, View.of, List.filter_append, List.filter_eq_nil_iff.mpr, List.nil_append]
  intro m among
  simpa using zones m among

end Summary

namespace Session

theorem sinceSummary_summary (items : List Item) (text : String) (now : Time.Timestamp) :
    sinceSummary (items ++ [.summary text now]) = (some text, []) := by
  induction items with
  | nil => rfl
  | cons item items ih => simp only [List.cons_append, sinceSummary, ih]

theorem all_messages (ms : List Authored) : ∀ item ∈ ms.map Item.message, ∃ m, item = .message m := by
  intro item among
  obtain ⟨m, -, rfl⟩ := List.mem_map.mp among
  exact ⟨m, rfl⟩

theorem sinceSummary_plus (s : Session) (ms : List Authored) :
    sinceSummary (s.plus ms).items = (s.latestSummary, s.tail ++ ms.map .message) :=
  sinceSummary_append (all_messages ms) s.items

end Session

namespace Summary

variable {setup : Setup σ} {a : Agent σ} {s : Session} {said : List (Moment × Authored)}

theorem conversation_whole (whole : a.historyLimit = none) (s : Session) :
    View.conversation s a = (Session.sinceSummary s.items).2.filterMap (narrateItem a.name) := by
  simp only [View.conversation, whole, Session.tail]

theorem conversation_plus (whole : a.historyLimit = none) (s : Session) (ms : List Authored) :
    View.conversation (s.plus ms) a = View.conversation s a ++ appear a ms := by
  rw [conversation_whole whole, conversation_whole whole, Session.sinceSummary_plus,
    List.filterMap_append]
  rfl

theorem Stage.added?_eq_some {stage : Stage} {now : Time.Timestamp} {item : Item}
    (h : stage.added? now = some item) : ∃ text, item = .summary text now := by
  unfold added? at h
  split at h
  · cases h
    exact ⟨_, rfl⟩
  · cases h

/-- A summary hides whatever has been said before it was added. -/
theorem Progress.conversation {x : Making σ} (h : Progress setup a s said x)
    (whole : a.historyLimit = none) :
    View.conversation x.session a = match x.stage.added? setup.now with
      | some _ => appear a (saidAt .after said)
      | none => View.conversation s a ++ appear a (saidAt .before said) ++
          appear a (saidAt .meanwhile said) ++ appear a (saidAt .after said) := by
  have items := h.items
  rw [conversation_whole whole]
  cases added : x.stage.added? setup.now with
  | none =>
    have all : x.session.items = (s.plus (saidAt .before said ++ saidAt .meanwhile said ++
        saidAt .after said)).items := by
      rw [items, added]
      simp [Session.plus]
    rw [all, ← conversation_whole whole, conversation_plus whole]
    simp [appear]
  | some item =>
    obtain ⟨text, rfl⟩ := Stage.added?_eq_some added
    rw [items, added, Option.toList_some, Session.sinceSummary_append (Session.all_messages _),
      Session.sinceSummary_summary]
    rfl

def requestFor (a : Agent σ) (s : Session) (seen : List Message) : Option Model.Request :=
  match seen.filter fun m => m.role ≠ .system with
  | [] => none
  | conversation =>
    some (.of a.model.model
      [.system instructions, .user (transcript s.latestSummary conversation)] a.model.options)

theorem intercalate_mem {line : String} {lines : List String} (among : line ∈ lines)
    (sep : String) : ∃ before after, sep.intercalate lines = before ++ line ++ after := by
  induction lines with
  | nil => cases among
  | cons first rest ih =>
    by_cases last : rest = []
    · subst last
      rw [List.mem_singleton.mp among]
      exact ⟨"", "", by simp⟩
    rw [String.intercalate_cons_of_ne_nil last]
    rcases List.mem_cons.mp among with rfl | later
    · exact ⟨"", sep ++ sep.intercalate rest, by simp [String.append_assoc]⟩
    · obtain ⟨before, after, found⟩ := ih later
      exact ⟨first ++ sep ++ before, after, by simp [found, String.append_assoc]⟩

theorem transcript_tells {conversation : List Message} {m : Message} (among : m ∈ conversation)
    {line : String} (tells : line ∈ told m) (previous : Option String) :
    ∃ before after, transcript previous conversation = before ++ line ++ after := by
  obtain ⟨before, after, found⟩ :=
    intercalate_mem (List.mem_flatMap.mpr ⟨m, among, tells⟩) "\n\n"
  unfold transcript
  rw [found, ← String.append_assoc, ← String.append_assoc]
  exact ⟨_, after, rfl⟩

/-- The text that is to be summarised holds every line that a message is told in. -/
theorem requestFor_tells {seen : List Message} {m : Message}
    (among : m ∈ seen.filter fun m => m.role ≠ .system) (a : Agent σ) (s : Session) :
    ∃ request text, requestFor a s seen = some request ∧
      request.messages = [.system instructions, .user text] ∧
      ∀ line ∈ told m, ∃ before after, text = before ++ line ++ after := by
  unfold requestFor
  split
  · rename_i none
    rw [none] at among
    cases among
  · exact ⟨_, _, rfl, rfl, fun line tells => transcript_tells among tells _⟩

theorem request?_plus (setup : Setup σ) (whole : a.historyLimit = none) (s : Session)
    (ms : List Authored) :
    Summary.request? setup.here (s.plus ms) a setup.team =
      requestFor a s (View.conversation s a ++ appear a ms) := by
  have latest : (s.plus ms).latestSummary = s.latestSummary := by
    rw [Session.latestSummary, Session.sinceSummary_plus]
  rw [Summary.request?, spoken_eq, conversation_plus whole, latest]
  rfl

/-- What an agent says itself or hears from the user appears as it was said. -/
theorem mem_appear {ms : List Authored} {m : Authored} (among : m ∈ ms)
    (own : Authorship.of a.name m.author = .own) :
    { m.message with checkpoint := false } ∈ appear a ms :=
  List.mem_filterMap.mpr ⟨_, List.mem_map_of_mem among, narrateItem_own own⟩

end Summary

/-- What is said before a summary looks is told line by line to whoever writes it, except in the
role of the system. Once it is added it hides all of that, and as well what was said while it was
written, which is told to nobody. Without a summary everything stays in view. -/
theorem summaries_hide (setup : Setup σ) (a : Agent σ) (whole : a.historyLimit = none) (s : Session)
    (c : Cancellation) (world : σ) :
    (∀ agent, setup.team.agent agent = .ok a →
      let result := setup.summarize s agent c world
      ∃ request, Goes setup a ⟨s, c, world, .opening⟩ []
        ⟨result.session, result.cancel, result.world, .closed request result.outcome⟩) ∧
    ∀ said s' c' world' request outcome,
      Goes setup a ⟨s, c, world, .opening⟩ said ⟨s', c', world', .closed request outcome⟩ →
        let seen := View.conversation s a ++ appear a (saidAt .before said)
        request = requestFor a s seen ∧
        (∀ m, Authorship.of a.name m.author = .own → m.message.role ≠ .system →
          .message m ∈ s.tail ∨ (.before, m) ∈ said →
            { m.message with checkpoint := false } ∈ seen.filter fun m => m.role ≠ .system) ∧
        (∀ m ∈ seen.filter fun m => m.role ≠ .system, ∃ asked text, request = some asked ∧
          asked.messages = [.system instructions, .user text] ∧
          ∀ line ∈ told m, ∃ before after, text = before ++ line ++ after) ∧
        View.conversation s' a = match outcome with
          | .ok (some _) => appear a (saidAt .after said)
          | _ => seen ++ appear a (saidAt .meanwhile said) ++ appear a (saidAt .after said) := by
  refine ⟨fun agent found => setup.summarize_goes s found c world, ?_⟩
  intro said s' c' world' request outcome goes seen
  have progress := goes.progress
  have requested : request = requestFor a s seen := by
    rw [← request?_plus setup whole]
    exact progress.request (by simp)
  refine ⟨requested, ?_, ?_, ?_⟩
  · intro m own role there
    rw [List.mem_filter]
    refine ⟨?_, by simpa using role⟩
    rcases there with before | said
    · apply List.mem_append_left
      rw [conversation_whole whole]
      exact List.mem_filterMap.mpr ⟨_, before, narrateItem_own own⟩
    · exact List.mem_append_right _ (mem_appear (mem_saidAt.mpr said) own)
  · rw [requested]
    intro m among
    exact requestFor_tells among a s
  · rw [progress.conversation whole]
    rcases outcome with e | _ | text <;> rfl

namespace Sample

/-- The user has said something, and something more in the role of the system. -/
def asked : Session :=
  (session.addUser "go" noon).add userAuthor (.system "Never touch the red button.") noon

/-- What the user says while the summary of the session is written. -/
def objection : Authored := ⟨userAuthor, .user "Wait.", noon⟩

def opened : Making Model.Playback :=
  ⟨asked, .never, (occasion [[.text "The user says go."]]).world, .opening⟩

end Sample

/-- Only the first of the three is told, and none of them stays in view. -/
theorem summaries_hide_sample : ∃ request s' c' world',
    Goes Sample.setup Sample.agent Sample.opened [(.meanwhile, Sample.objection)]
      ⟨s', c', world', .closed (some request) (.ok (some "The user says go."))⟩ ∧
    request.messages = [.system instructions, .user "User: go"] ∧
    View.conversation s' Sample.agent = [] := by
  have looks : Makes Sample.setup Sample.agent Sample.opened _ := .looked rfl
  have heard := ((Goes.step (.refl _) looks).say Sample.objection).step (.answered rfl)
  have goes := (heard.step (.heard rfl)).step .committed
  obtain ⟨-, hides⟩ := summaries_hide Sample.setup Sample.agent rfl Sample.asked .never
    (Sample.occasion [[.text "The user says go."]]).world
  obtain ⟨-, -, -, view⟩ := hides _ _ _ _ _ _ goes
  exact ⟨_, _, _, _, goes, rfl, view⟩

end Ensemble
