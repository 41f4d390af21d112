import Ensemble.Proofs.Handoffs
import Ensemble.Proofs.Json.Fields
import Ensemble.Proofs.Tool.Registry

/-!
# Transfers

The arguments of a transfer are whatever text a model has written. `Handoff.Describes` tells the
values they are read of, `ToolCall.AsksFor` the texts. A transfer goes through just when its text
asks for a handoff target of the caller: then result, briefing, active agent and events change
together (`Run.Transferred`). Any other leaves an error result and nothing else (`Run.Rejected`).
-/

namespace Ensemble

open Json (Sorted)

variable {σ : Type}

/-! ## Arguments -/

/-- The values that arguments are read of: an object with their names, or a list in their order. What
is expected may be left out. -/
inductive Handoff.Describes : Json → Handoff.Arguments → Prop where
  | named {members : List (String × Json)} (agent task : String) (expected : Option String)
      (hasAgent : members.lookup "agent" = some (.text agent))
      (hasTask : members.lookup "task" = some (.text task))
      (hasExpected : members.lookup "expected_output" = expected.map .text) :
      Describes (.object members) ⟨agent, task, expected.getD ""⟩
  | listed (agent task : String) (expected : Option String) :
      Describes (.array (.text agent :: .text task :: (expected.map .text).toList))
        ⟨agent, task, expected.getD ""⟩

def ToolCall.AsksFor (call : ToolCall) (args : Handoff.Arguments) : Prop :=
  ∃ v, call.Carries v ∧ Handoff.Describes v args

theorem ToolCall.Carries.sorted {call : ToolCall} {members : List (String × Json)}
    (h : call.Carries (.object members)) : Sorted members := by
  cases h with
  | nothing => exact List.Pairwise.nil
  | value given read => exact Json.sorted_of_parse read

namespace Handoff

open Json Json.Fields

def Arguments.fields : Fields Arguments :=
  Arguments.mk <$> .required "agent" Decode.text <*> .required "task" Decode.text
    <*> .defaulted "expected_output" "" Decode.text

theorem read_fields_iff {src : Source} {ms : Members} {agent task expected : Option Json}
    (hasAgent : ms.given? "agent" = agent.map Doc.ofJson)
    (hasTask : ms.given? "task" = task.map Doc.ofJson)
    (hasExpected : ms.given? "expected_output" = expected.map Doc.ofJson) {args : Arguments} :
    Arguments.fields.read src ms = .ok args ↔
      agent = some (.text args.agent) ∧ task = some (.text args.task) ∧
        (expected = some (.text args.expectedOutput) ∨
          expected = none ∧ "" = args.expectedOutput) := by
  simp only [Arguments.fields, read_seq_iff, read_map_iff, read_required_iff, read_defaulted_iff,
    hasAgent, hasTask, hasExpected, text_member_iff, Option.map_eq_none_iff]
  constructor
  · rintro ⟨_, _, ⟨_, _, ⟨_, agent, rfl⟩, task, rfl⟩, expected, rfl⟩
    exact ⟨agent, task, expected⟩
  · rintro ⟨agent, task, expected⟩
    exact ⟨_, _, ⟨_, _, ⟨_, agent, rfl⟩, task, rfl⟩, expected, rfl⟩

theorem decode_object_iff {members : List (String × Json)} (sorted : Sorted members)
    {args : Arguments} :
    Decode.ofValue Arguments.decode (.object members) = .ok args ↔
      Describes (.object members) args := by
  rw [Decode.ofValue, Arguments.decode, record_object_iff _ _ sorted.nodup]
  refine (read_fields_iff (given?_ofObject _ _) (given?_ofObject _ _) (given?_ofObject _ _)).trans ?_
  constructor
  · rintro ⟨agent, task, expected | ⟨absent, empty⟩⟩
    · exact .named args.agent args.task (some args.expectedOutput) agent task expected
    · have described := Describes.named args.agent args.task none agent task absent
      rwa [Option.getD_none, empty] at described
  · intro described
    obtain ⟨agent, task, _ | expected, hasAgent, hasTask, hasExpected⟩ := described
    · exact ⟨hasAgent, hasTask, .inr ⟨hasExpected, rfl⟩⟩
    · exact ⟨hasAgent, hasTask, .inl hasExpected⟩

theorem decode_array_iff {items : List Json} {args : Arguments} :
    Decode.ofValue Arguments.decode (.array items) = .ok args ↔
      Describes (.array items) args := by
  have distinct : Arguments.fields.names.Nodup := by decide
  rw [Decode.ofValue, Arguments.decode, record_array_iff]
  refine (and_congr_right fun _ => read_fields_iff (given?_positions (i := 0) distinct items rfl)
    (given?_positions (i := 1) distinct items rfl)
    (given?_positions (i := 2) distinct items rfl)).trans ?_
  obtain ⟨agent, task, expected⟩ := args
  constructor
  · rintro ⟨size, first, second, third⟩
    have size : items.length ≤ 3 := size
    match items with
    | [] => cases first
    | [_] => cases second
    | [_, _] =>
      cases first
      cases second
      obtain third | ⟨-, rfl⟩ := third
      · cases third
      · exact .listed agent task none
    | [_, _, _] =>
      cases first
      cases second
      obtain third | ⟨third, -⟩ := third
      · cases third
        exact .listed agent task (some expected)
      · cases third
    | _ :: _ :: _ :: _ :: rest =>
      simp only [List.length_cons] at size
      omega
  · intro described
    obtain _ | ⟨agent, task, _ | expected⟩ := described
    · exact ⟨Nat.le_succ 2, rfl, rfl, .inr ⟨rfl, rfl⟩⟩
    · exact ⟨Nat.le_refl 3, rfl, rfl, .inl rfl⟩

theorem decode_iff {v : Json} (sorted : ∀ members, v = .object members → Sorted members)
    {args : Arguments} : Decode.ofValue Arguments.decode v = .ok args ↔ Describes v args := by
  cases v with
  | object members => exact decode_object_iff (sorted members rfl)
  | array items => exact decode_array_iff
  | null | bool | number | text =>
    rw [Decode.ofValue, Arguments.decode, Doc.ofJson]
    exact iff_of_false (record_other _ _ nofun nofun) nofun

end Handoff

namespace Run

theorem transferArguments_iff {call : ToolCall} {args : Handoff.Arguments} :
    transferArguments call = .ok args ↔ call.AsksFor args := by
  have read (v : Json) (carried : call.Carries v) :
      Json.Decode.ofValue Handoff.Arguments.decode v = .ok args ↔ Handoff.Describes v args :=
    Handoff.decode_iff fun members same => (same ▸ carried).sorted
  constructor
  · intro h
    obtain ⟨v, parsed, decoded⟩ := Json.bind_eq_ok h
    have carried := ToolCall.carries_iff.mpr parsed
    exact ⟨v, carried, (read v carried).mp decoded⟩
  · rintro ⟨v, carried, described⟩
    rw [transferArguments, ToolCall.carries_iff.mp carried]
    exact (read v carried).mpr described

/-! ## Outcomes -/

structure Transferred (setup : Setup σ) (caller : String) (call : ToolCall)
    (args : Handoff.Arguments) (r r' : Run σ) : Prop where
  session : r'.session = { r.session with
    items := r.session.items ++
      [.message ⟨caller, .toolResult call.id (transferredText args.agent), setup.now⟩,
        .message ⟨args.agent, .user (args.briefing caller), setup.now⟩]
    activeAgent := some args.agent }
  agent : r'.agent = args.agent
  events : r'.events = r.events ++
    [.resultOf caller call (transferredText args.agent) false, .agentSwitched caller args.agent]
  cancel : r'.cancel = r.cancel
  world : r'.world = r.world

structure Rejected (setup : Setup σ) (caller : String) (call : ToolCall) (text : String)
    (r r' : Run σ) : Prop where
  session : r'.session = { r.session with
    items := r.session.items ++ [.message ⟨caller, .toolResult call.id text, setup.now⟩] }
  agent : r'.agent = r.agent
  events : r'.events = r.events ++ [.resultOf caller call text true]
  cancel : r'.cancel = r.cancel
  world : r'.world = r.world

theorem recordResult_rejected (setup : Setup σ) (caller : String) (call : ToolCall)
    (text : String) (r : Run σ) :
    Rejected setup caller call text r (r.recordResult setup caller call .transfer text true) :=
  ⟨rfl, rfl, rfl, rfl, rfl⟩

theorem switchTo_transferred (setup : Setup σ) (caller : String) (call : ToolCall)
    (args : Handoff.Arguments) (r : Run σ) :
    Transferred setup caller call args r
      ((r.recordResult setup caller call .transfer (transferredText args.agent) false).switchTo
        setup caller args) where
  session := by simp [switchTo, recordResult, emit, say, note, Session.add]
  agent := rfl
  events := by simp [switchTo, recordResult, emit, say, note]
  cancel := rfl
  world := rfl

end Run

/-- A transfer whose text asks for a handoff target of the caller happens as a whole. With any other
text the call is answered with an error, and all else stays as it was. -/
theorem transfer_all_or_nothing (setup : Setup σ) (caller : String) (call : ToolCall) (r : Run σ) :
    let targets := (setup.team.handoffTargets caller).map (·.name)
    let r' := r.handoff setup caller call
    (∀ args, call.AsksFor args → args.agent ∈ targets →
        r.Transferred setup caller call args r') ∧
      (∀ args, call.AsksFor args → args.agent ∉ targets →
        r.Rejected setup caller call (Run.invalidTargetText args.agent caller targets) r') ∧
      ((∀ args, ¬ call.AsksFor args) →
        ∃ e, r.Rejected setup caller call (Run.invalidArgumentsText e) r') := by
  dsimp only
  refine ⟨?_, ?_, ?_⟩
  · intro args asks valid
    have read := Run.transferArguments_iff.mpr asks
    rw [Run.handoff_of_transfer? (transfer?_eq_some_iff.mpr ⟨read, valid⟩)]
    exact Run.switchTo_transferred setup caller call args r
  · intro args asks invalid
    rw [Run.handoff, Run.transferArguments_iff.mpr asks]
    simp only [if_neg invalid]
    exact Run.recordResult_rejected setup caller call _ r
  · intro refused
    cases read : Run.transferArguments call with
    | error e =>
      refine ⟨e, ?_⟩
      rw [Run.handoff, read]
      exact Run.recordResult_rejected setup caller call _ r
    | ok args => exact absurd (Run.transferArguments_iff.mp read) (refused args)

/-! ## A sample

The root may hand over to the helper only. -/

namespace Sample

def backText : String := "[\"root\",\"back\"]"

theorem asksFor_helper : (transferCall helpText).AsksFor ⟨"helper", "help", ""⟩ :=
  Run.transferArguments_iff.mp (transfer?_eq_some_iff.mp transfers).1

theorem asksFor_root : (transferCall backText).AsksFor ⟨"root", "back", ""⟩ := by
  have given : Text.isBlankText (transferCall backText).arguments = false := by rfl
  have read : Json.parse (transferCall backText).arguments =
      .ok (.array [.text "root", .text "back"]) := by
    unfold transferCall backText
    cbv
  exact ⟨_, .value given read, .listed "root" "back" none⟩

theorem not_asksFor_blank (args : Handoff.Arguments) : ¬ (transferCall " ").AsksFor args := by
  rintro ⟨v, _ | ⟨given, -⟩, described⟩
  · cases described with
    | named agent task expected hasAgent => cases hasAgent
  · have blank : Text.isBlankText (transferCall " ").arguments = true := by rfl
    rw [blank] at given
    cases given

end Sample

theorem transfer_all_or_nothing_sample :
    let setup := (Sample.handover Sample.helpText).setup Sample.pair
    let help := Sample.transferCall Sample.helpText
    let back := Sample.transferCall Sample.backText
    let blank := Sample.transferCall " "
    let r : Run Model.Playback := ⟨Sample.session, "root", .never, { turns := [] }, [], [], []⟩
    (help.AsksFor ⟨"helper", "help", ""⟩ ∧
        r.Transferred setup "root" help ⟨"helper", "help", ""⟩ (r.handoff setup "root" help)) ∧
      (back.AsksFor ⟨"root", "back", ""⟩ ∧
        r.Rejected setup "root" back (Run.invalidTargetText "root" "root" ["helper"])
          (r.handoff setup "root" back)) ∧
      (∀ args, ¬ blank.AsksFor args) ∧
        ∃ e, r.Rejected setup "root" blank (Run.invalidArgumentsText e)
          (r.handoff setup "root" blank) := by
  intro setup help back blank r
  have targets : (setup.team.handoffTargets "root").map (·.name) = ["helper"] :=
    Sample.pair_targets
  have outcome := fun call => transfer_all_or_nothing setup "root" call r
  simp only [targets] at outcome
  refine ⟨⟨Sample.asksFor_helper, ?_⟩, ⟨Sample.asksFor_root, ?_⟩, Sample.not_asksFor_blank, ?_⟩
  · exact (outcome help).1 ⟨"helper", "help", ""⟩ Sample.asksFor_helper (.head _)
  · exact (outcome back).2.1 ⟨"root", "back", ""⟩ Sample.asksFor_root (by decide)
  · exact (outcome blank).2.2 Sample.not_asksFor_blank

end Ensemble
