import Ensemble.Event.Codec
import Ensemble.Proofs.Json.Records
import Ensemble.Proofs.Time
import Ensemble.Session.Codec

/-!
# Sessions and events that read back

What is written for a session or an event is read as that session or event, also with the members
of its objects in another order and with texts under names nobody knows. Floats are only assumed
to read back; times are those of the years 0 to 9999.

Texts that were written by hand, with blanks or with records as arrays, are not covered.
-/

namespace Ensemble

open Json

/-! ## Parts -/

theorem Time.Timestamp.reads {t : Timestamp} (valid : t.Valid) :
    Reads Timestamp.decode (exactly t.toJson) t where
  read src v form := by
    have read : parse t.render.toList = .ok t := by
      rw [render, String.toList_ofList, parse_print valid]
    rw [form, toJson, Doc.ofJson, decode, Decode.textAs]
    simp only [read]
  given v form := by
    rw [form]
    exact Json.noConfusion

theorem Role.reads (r : Role) : Reads Role.decode (exactly r.toJson) r := by
  cases r <;> exact .variant rfl

namespace ToolCall

def formFields (c : ToolCall) : List (String × Option Form) := [
  ("id", some (exactly (.text c.id))), ("name", some (exactly (.text c.name))),
  ("arguments", some (exactly (.text c.arguments)))]

def form (c : ToolCall) : Form := RecordOf c.formFields

theorem reads (c : ToolCall) : Reads ToolCall.decode c.form c := by
  have fields := (((Fits.required "id" (.text c.id)).map ToolCall.mk).seq
    (.required "name" (.text c.name))).seq (.required "arguments" (.text c.arguments))
  exact .record _ fields (by decide)

theorem form_toJson (c : ToolCall) : c.form c.toJson :=
  .plain (.written _ rfl (.written _ rfl (.written _ rfl .nil)))

theorem within_form (c : ToolCall) : c.form.Within 1 :=
  within_recordOf (.written (within_text _ _) (.written (within_text _ _)
    (.written (within_text _ _) .nil)))

end ToolCall

namespace Usage

def formFields (u : Usage) : List (String × Option Form) := [
  ("input_tokens", some (exactly (.nat u.input.toNat))),
  ("output_tokens", some (exactly (.nat u.output.toNat))),
  ("cached_input_tokens", some (exactly (.nat u.cachedInput.toNat))),
  ("cache_write_tokens", some (exactly (.nat u.cacheWrite.toNat)))]

def form (u : Usage) : Form := RecordOf u.formFields

theorem reads (u : Usage) : Reads Usage.decode u.form u := by
  have fields := ((((Fits.required "input_tokens" (.word64 u.input)).map Usage.mk).seq
    (.required "output_tokens" (.word64 u.output))).seq
    (.defaulted "cached_input_tokens" 0 (.word64 u.cachedInput))).seq
    (.defaulted "cache_write_tokens" 0 (.word64 u.cacheWrite))
  exact .record _ fields (by decide)

theorem form_toJson (u : Usage) : u.form u.toJson :=
  .plain (.written _ rfl (.written _ rfl (.written _ rfl (.written _ rfl .nil))))

theorem within_form (u : Usage) : u.form.Within 1 :=
  within_recordOf (.written (within_word _ _) (.written (within_word _ _)
    (.written (within_word _ _) (.written (within_word _ _) .nil))))

end Usage

namespace Message

/-- What is not set has no member. -/
def formFields (m : Message) : List (String × Option Form) := [
  ("role", some (exactly m.role.toJson)), ("content", some (exactly (.text m.content))),
  ("tool_calls", m.toolCalls.map fun cs => listOf (cs.map ToolCall.form)),
  ("tool_call_id", m.toolCallId.map fun s => exactly (.text s)),
  ("usage", m.usage.map Usage.form), ("cost", m.cost.map fun x => exactly (.float x)),
  ("model", m.model.map fun s => exactly (.text s)),
  ("cache_checkpoint", if m.checkpoint then some (exactly (.bool true)) else none)]

def form (m : Message) : Form := RecordOf m.formFields

theorem fits_checkpoint (b : Bool) :
    Fits (.defaulted "cache_checkpoint" false Decode.bool)
      [("cache_checkpoint", if b then some (exactly (.bool true)) else none)] b := by
  cases b with
  | true => exact .defaulted _ false (.bool true)
  | false => exact .left _ false _

theorem reads (m : Message) : Reads Message.decode m.form m := by
  have calls (cs : List ToolCall) :
      Reads (Decode.list ToolCall.decode) (listOf (cs.map ToolCall.form)) cs :=
    .list ToolCall.form cs fun c _ => c.reads
  have fields := ((((((((Fits.required "role" m.role.reads).map Message.mk).seq
    (.required "content" (.text m.content))).seq
    (.nullable "tool_calls" _ m.toolCalls fun cs _ => calls cs)).seq
    (.nullable "tool_call_id" _ m.toolCallId fun s _ => .text s)).seq
    (.optional "usage" _ m.usage fun u _ => u.reads)).seq
    (.optional "cost" _ m.cost fun x _ => .float x)).seq
    (.optional "model" _ m.model fun s _ => .text s)).seq (fits_checkpoint m.checkpoint)
  exact .record _ fields (by decide)

theorem form_toJson (m : Message) : m.form m.toJson := by
  have calls (cs : List ToolCall) :
      listOf (cs.map ToolCall.form) (.array (cs.map ToolCall.toJson)) :=
    listOf_map _ _ cs fun c _ => c.form_toJson
  have checkpoint : Filled
      [("cache_checkpoint", if m.checkpoint then some (exactly (.bool true)) else none)]
      (whenTrue "cache_checkpoint" m.checkpoint) := by
    cases m.checkpoint with
    | true => exact .written _ rfl .nil
    | false => exact .left _ .nil
  have start : Filled [("role", some (exactly m.role.toJson)),
      ("content", some (exactly (.text m.content)))]
      [("role", m.role.toJson), ("content", .text m.content)] :=
    .written _ rfl (.written _ rfl .nil)
  have id := Filled.whenSome "tool_call_id" (fun s => exactly (.text s)) .text m.toolCallId
    fun _ => rfl
  have cost := Filled.whenSome "cost" (fun x => exactly (.float x)) .float m.cost fun _ => rfl
  have model := Filled.whenSome "model" (fun s => exactly (.text s)) .text m.model fun _ => rfl
  exact .plain ((((((start.append (.whenSome "tool_calls" _ _ m.toolCalls calls)).append id).append
    (.whenSome "usage" _ _ m.usage Usage.form_toJson)).append cost).append model).append checkpoint)

theorem within_form (m : Message) (floats : ∀ x, m.cost = some x → ReadsBack x) :
    m.form.Within 3 := by
  have calls (cs : List ToolCall) : (listOf (cs.map ToolCall.form)).Within 2 :=
    within_listOf _ cs fun c _ => c.within_form
  have checkpoint : Shallow 2
      [("cache_checkpoint", if m.checkpoint then some (exactly (.bool true)) else none)] := by
    cases m.checkpoint with
    | true => exact .written (within_bool _ _) .nil
    | false => exact .left .nil
  have usage (u : Usage) : u.form.Within 2 := fun v form => (u.within_form v form).mono (by decide)
  exact within_recordOf (.written (by cases m.role <;> exact within_text _ _)
    (.written (within_text _ _) (.option _ (fun cs _ => calls cs)
    (.option _ (fun _ _ => within_text _ _) (.option _ (fun u _ => usage u)
    (.option _ (fun x given => within_float _ (floats x given))
    (.option _ (fun _ _ => within_text _ _) checkpoint)))))))

end Message

namespace Authored

def formFields (m : Authored) : List (String × Option Form) := [
  ("agent_name", some (exactly (.text m.author))), ("message", some m.message.form),
  ("created_at", some (exactly m.createdAt.toJson))]

def form (m : Authored) : Form := RecordOf m.formFields

theorem reads {m : Authored} (valid : m.createdAt.Valid) : Reads Authored.decode m.form m := by
  have fields := (((Fits.required "agent_name" (.text m.author)).map Authored.mk).seq
    (.required "message" m.message.reads)).seq
    (.required "created_at" (Time.Timestamp.reads valid))
  exact .record _ fields (by decide)

theorem filled_members (m : Authored) : Filled m.formFields m.members :=
  .written _ rfl (.written _ m.message.form_toJson (.written _ rfl .nil))

theorem shallow_formFields (m : Authored) (floats : ∀ x, m.message.cost = some x → ReadsBack x) :
    Shallow 3 m.formFields :=
  .written (within_text _ _) (.written (m.message.within_form floats)
    (.written (within_text _ _) .nil))

end Authored

/-! ## Sessions -/

namespace Session

namespace Item

def kind : Item → String
  | .message _ => "message"
  | .summary _ _ => "summary"

def formFields : Item → List (String × Option Form)
  | .message m => m.formFields
  | .summary content createdAt =>
    [("summary", some (exactly (.text content))), ("created_at", some (exactly createdAt.toJson))]

def form (item : Item) : Form :=
  RecordOf (("kind", some (exactly (.text item.kind))) :: item.formFields)

def time : Item → Time.Timestamp
  | .message m => m.createdAt
  | .summary _ createdAt => createdAt

def floats : Item → List Float
  | .message m => m.message.cost.toList
  | .summary _ _ => []

theorem reads {item : Item} (valid : item.time.Valid) : Reads Item.decode item.form item := by
  cases item with
  | message m =>
    have distinct : ["kind", "agent_name", "message", "created_at"].Nodup := by decide
    exact .tagged _ rfl distinct ((Authored.reads valid).map Item.message)
  | summary content createdAt =>
    have fields := ((Fits.required "summary" (.text content)).map Item.summary).seq
      (.required "created_at" (Time.Timestamp.reads valid))
    exact .taggedRecord _ rfl fields (by decide)

theorem form_toJson (item : Item) : item.form item.toJson := by
  cases item with
  | message m => exact .plain (.written _ rfl m.filled_members)
  | summary content createdAt =>
    exact .plain (.written _ rfl (.written _ rfl (.written _ rfl .nil)))

theorem within_form (item : Item) (floats : ∀ x ∈ item.floats, ReadsBack x) :
    item.form.Within 4 := by
  cases item with
  | message m =>
    have cost (x : Float) (given : m.message.cost = some x) : ReadsBack x :=
      floats x (Option.mem_toList.mpr given)
    exact within_recordOf (.written (within_text _ _) (m.shallow_formFields cost))
  | summary content createdAt =>
    exact within_recordOf (.written (within_text _ _) (.written (within_text _ _)
      (.written (within_text _ _) .nil)))

end Item

namespace Permissions

def formFields (p : Permissions) : List (String × Option Form) := [
  ("allow", some (exactly (.texts p.allow))), ("deny", some (exactly (.texts p.deny)))]

def form (p : Permissions) : Form := RecordOf p.formFields

theorem reads (p : Permissions) : Reads Permissions.decode p.form p := by
  have fields := ((Fits.defaulted "allow" [] (.texts p.allow)).map Permissions.mk).seq
    (.defaulted "deny" [] (.texts p.deny))
  exact .record _ fields (by decide)

theorem form_toJson (p : Permissions) : p.form p.toJson :=
  .plain (.written _ rfl (.written _ rfl .nil))

theorem within_form (p : Permissions) : p.form.Within 2 :=
  within_recordOf (.written (within_texts _ _) (.written (within_texts _ _) .nil))

end Permissions

namespace Pending

def formFields (p : Pending) : List (String × Option Form) := [
  ("agent", some (exactly (.text p.agent))),
  ("tool_calls", some (listOf (p.calls.map ToolCall.form)))]

def form (p : Pending) : Form := RecordOf p.formFields

theorem reads (p : Pending) : Reads Pending.decode p.form p := by
  have fields := ((Fits.required "agent" (.text p.agent)).map Pending.mk).seq
    (.required "tool_calls" (.list ToolCall.form p.calls fun c _ => c.reads))
  exact .record _ fields (by decide)

theorem form_toJson (p : Pending) : p.form p.toJson :=
  .plain (.written _ rfl (.written _ (listOf_map _ _ p.calls fun c _ => c.form_toJson) .nil))

theorem within_form (p : Pending) : p.form.Within 3 :=
  within_recordOf (.written (within_text _ _)
    (.written (within_listOf _ p.calls fun c _ => c.within_form) .nil))

end Pending

/-- What is not set is null, except for what has a default. -/
def formFields (s : Session) : List (String × Option Form) := [
  ("id", some (exactly (.text s.id))), ("title", some (exactly (.text s.title))),
  ("created_at", some (exactly s.createdAt.toJson)),
  ("items", some (listOf (s.items.map Item.form))),
  ("tools_approved", some (exactly (.bool s.toolsApproved))),
  ("permissions", some s.permissions.form),
  ("input_tokens", some (exactly (.nat s.inputTokens.toNat))),
  ("output_tokens", some (exactly (.nat s.outputTokens.toNat))),
  ("cost", some (exactly (.float s.cost))),
  ("working_dir", some (orNullForm (fun d => exactly (.text d)) s.workingDir)),
  ("active_agent", some (orNullForm (fun a => exactly (.text a)) s.activeAgent)),
  ("pending", some (orNullForm Pending.form s.pending))]

def form (s : Session) : Form := RecordOf s.formFields

def times (s : Session) : List Time.Timestamp := s.createdAt :: s.items.map Item.time

def floats (s : Session) : List Float := s.cost :: s.items.flatMap Item.floats

theorem reads {s : Session} (valid : ∀ t ∈ s.times, t.Valid) : Reads Session.decode s.form s := by
  have items : Reads (Decode.list Item.decode) (listOf (s.items.map Item.form)) s.items :=
    .list Item.form s.items fun item among =>
      Item.reads (valid _ (.tail _ (List.mem_map_of_mem among)))
  have fields := ((((((((((((Fits.required "id" (.text s.id)).map Session.mk).seq
    (.defaulted "title" "" (.text s.title))).seq
    (.required "created_at" (Time.Timestamp.reads (valid _ (.head _))))).seq
    (.defaulted "items" [] items)).seq
    (.defaulted "tools_approved" false (.bool s.toolsApproved))).seq
    (.defaulted "permissions" {} s.permissions.reads)).seq
    (.defaulted "input_tokens" 0 (.word64 s.inputTokens))).seq
    (.defaulted "output_tokens" 0 (.word64 s.outputTokens))).seq
    (.defaulted "cost" 0 (.float s.cost))).seq
    (.optional_null "working_dir" _ s.workingDir fun d _ => .textAs "path string" d)).seq
    (.optional_null "active_agent" _ s.activeAgent fun a _ => .text a)).seq
    (.optional_null "pending" _ s.pending fun p _ => p.reads)
  exact .record _ fields (by decide)

theorem form_toJson (s : Session) : s.form s.toJson := by
  have items := listOf_map Item.form Item.toJson s.items fun item _ => item.form_toJson
  have orNull {α : Type} (each : α → Form) (write : α → Json) (o : Option α)
      (h : ∀ a, each a (write a)) : orNullForm each o (.orNull write o) := by
    cases o with
    | none => rfl
    | some a => exact h a
  exact .plain (.written _ rfl (.written _ rfl (.written _ rfl (.written _ items (.written _ rfl
    (.written _ s.permissions.form_toJson (.written _ rfl (.written _ rfl (.written _ rfl
    (.written _ (orNull _ _ _ fun _ => rfl) (.written _ (orNull _ _ _ fun _ => rfl)
    (.written _ (orNull _ _ _ Pending.form_toJson) .nil))))))))))))

theorem within_form (s : Session) (floats : ∀ x ∈ s.floats, ReadsBack x) : s.form.Within 6 := by
  have items : (listOf (s.items.map Item.form)).Within 5 :=
    within_listOf _ s.items fun item among => item.within_form fun x given =>
      floats x (.tail _ (List.mem_flatMap_of_mem among given))
  have permissions : s.permissions.form.Within 5 :=
    fun v form => (s.permissions.within_form v form).mono (by decide)
  have pending (p : Pending) : p.form.Within 5 :=
    fun v form => (p.within_form v form).mono (by decide)
  exact within_recordOf (.written (within_text _ _) (.written (within_text _ _)
    (.written (within_text _ _) (.written items (.written (within_bool _ _)
    (.written permissions (.written (within_word _ _) (.written (within_word _ _)
    (.written (within_float _ (floats _ (.head _)))
    (.written (within_orNull _ _ fun _ _ => within_text _ _)
    (.written (within_orNull _ _ fun _ _ => within_text _ _)
    (.written (within_orNull _ _ fun p _ => pending p) .nil))))))))))))

end Session

/-! ## Events -/

namespace Event

def formFields : Event → List (String × Option Form)
  | .tokenDelta agent content =>
    [("agent", some (exactly (.text agent))), ("content", some (exactly (.text content)))]
  | .toolCallStarted agent call =>
    [("agent", some (exactly (.text agent))), ("tool_call", some call.form)]
  | .toolCallResult agent callId name content isError =>
    [("agent", some (exactly (.text agent))), ("tool_call_id", some (exactly (.text callId))),
      ("name", some (exactly (.text name))), ("content", some (exactly (.text content))),
      ("is_error", some (exactly (.bool isError)))]
  | .elicitationRequest agent message call =>
    [("agent", some (exactly (.text agent))), ("message", some (exactly (.text message))),
      ("tool_call", some call.form)]
  | .agentSwitched source target =>
    [("from", some (exactly (.text source))), ("to", some (exactly (.text target)))]
  | .sessionCompacted agent summary =>
    [("agent", some (exactly (.text agent))), ("summary", some (exactly (.text summary)))]
  | .followUpSuggestions agent suggestions =>
    [("agent", some (exactly (.text agent))), ("suggestions", some (exactly (.texts suggestions)))]
  | .error message => [("message", some (exactly (.text message)))]
  | .cancelled => []
  | .done agent stopReason usage cost =>
    [("agent", some (exactly (.text agent))), ("stop_reason", some (exactly (.text stopReason))),
      ("usage", some usage.form), ("cost", some (exactly (.float cost)))]

def form (e : Event) : Form := RecordOf (("type", some (exactly (.text e.kind))) :: e.formFields)

def floats : Event → List Float
  | .done _ _ _ cost => [cost]
  | _ => []

theorem reads (e : Event) : Reads Event.decode e.form e := by
  cases e with
  | tokenDelta agent content =>
    have fields := ((Fits.required "agent" (.text agent)).map tokenDelta).seq
      (.required "content" (.text content))
    exact .taggedRecord _ rfl fields (by decide)
  | toolCallStarted agent call =>
    have fields := ((Fits.required "agent" (.text agent)).map toolCallStarted).seq
      (.required "tool_call" call.reads)
    exact .taggedRecord _ rfl fields (by decide)
  | toolCallResult agent callId name content isError =>
    have fields := (((((Fits.required "agent" (.text agent)).map toolCallResult).seq
      (.required "tool_call_id" (.text callId))).seq (.required "name" (.text name))).seq
      (.required "content" (.text content))).seq (.required "is_error" (.bool isError))
    exact .taggedRecord _ rfl fields (by decide)
  | elicitationRequest agent message call =>
    have fields := (((Fits.required "agent" (.text agent)).map elicitationRequest).seq
      (.required "message" (.text message))).seq (.required "tool_call" call.reads)
    exact .taggedRecord _ rfl fields (by decide)
  | agentSwitched source target =>
    have fields := ((Fits.required "from" (.text source)).map agentSwitched).seq
      (.required "to" (.text target))
    exact .taggedRecord _ rfl fields (by decide)
  | sessionCompacted agent summary =>
    have fields := ((Fits.required "agent" (.text agent)).map sessionCompacted).seq
      (.required "summary" (.text summary))
    exact .taggedRecord _ rfl fields (by decide)
  | followUpSuggestions agent suggestions =>
    have fields := ((Fits.required "agent" (.text agent)).map followUpSuggestions).seq
      (.required "suggestions" (.texts suggestions))
    exact .taggedRecord _ rfl fields (by decide)
  | error message =>
    have fields := (Fits.required "message" (.text message)).map error
    exact .taggedRecord _ rfl fields (by decide)
  | cancelled => exact .tagged _ rfl (by decide) (.bare cancelled)
  | done agent stopReason usage cost =>
    have fields := ((((Fits.required "agent" (.text agent)).map done).seq
      (.required "stop_reason" (.text stopReason))).seq (.required "usage" usage.reads)).seq
      (.required "cost" (.float cost))
    exact .taggedRecord _ rfl fields (by decide)

theorem filled_fields (e : Event) : Filled e.formFields e.fields := by
  cases e with
  | toolCallStarted agent call => exact .written _ rfl (.written _ call.form_toJson .nil)
  | elicitationRequest agent message call =>
    exact .written _ rfl (.written _ rfl (.written _ call.form_toJson .nil))
  | done agent stopReason usage cost =>
    exact .written _ rfl (.written _ rfl (.written _ usage.form_toJson (.written _ rfl .nil)))
  | toolCallResult agent callId name content isError =>
    exact .written _ rfl (.written _ rfl (.written _ rfl (.written _ rfl (.written _ rfl .nil))))
  | tokenDelta | agentSwitched | sessionCompacted | followUpSuggestions =>
    exact .written _ rfl (.written _ rfl .nil)
  | error message => exact .written _ rfl .nil
  | cancelled => exact .nil

theorem form_toJson (e : Event) : e.form e.toJson := .plain (.written _ rfl e.filled_fields)

theorem within_form (e : Event) (floats : ∀ x ∈ e.floats, ReadsBack x) : e.form.Within 2 := by
  refine within_recordOf (.written (within_text _ _) ?_)
  cases e with
  | tokenDelta | agentSwitched | sessionCompacted =>
    exact .written (within_text _ _) (.written (within_text _ _) .nil)
  | toolCallStarted agent call =>
    exact .written (within_text _ _) (.written call.within_form .nil)
  | toolCallResult agent callId name content isError =>
    exact .written (within_text _ _) (.written (within_text _ _) (.written (within_text _ _)
      (.written (within_text _ _) (.written (within_bool _ _) .nil))))
  | elicitationRequest agent message call =>
    exact .written (within_text _ _) (.written (within_text _ _) (.written call.within_form .nil))
  | followUpSuggestions agent suggestions =>
    exact .written (within_text _ _) (.written (within_texts _ _) .nil)
  | error message => exact .written (within_text _ _) .nil
  | cancelled => exact .nil
  | done agent stopReason usage cost =>
    exact .written (within_text _ _) (.written (within_text _ _) (.written usage.within_form
      (.written (within_float _ (floats cost (.head _))) .nil)))

end Event

/-- Sessions and events read back unchanged from every form of what is written for them. -/
theorem written_reads_back :
    (∀ (s : Session) (v : Json), (∀ t ∈ s.times, t.Valid) → (∀ x ∈ s.floats, ReadsBack x) →
      s.form v → Decode.ofText Session.decode v.render = .ok s) ∧
    (∀ s : Session, s.form s.toJson) ∧
    (∀ (e : Event) (v : Json), (∀ x ∈ e.floats, ReadsBack x) →
      e.form v → Decode.ofText Event.decode v.render = .ok e) ∧
    (∀ e : Event, e.form e.toJson) := by
  refine ⟨?_, Session.form_toJson, ?_, Event.form_toJson⟩
  · intro s v valid floats form
    have legible := (s.within_form floats v form).mono (show 6 ≤ Doc.depthLimit by decide)
    rw [ofText_render _ legible]
    exact (Session.reads valid).read .text v form
  · intro e v floats form
    have legible := (e.within_form floats v form).mono (show 2 ≤ Doc.depthLimit by decide)
    rw [ofText_render _ legible]
    exact e.reads.read .text v form

def Sample.escaped : ToolCall := ⟨"c", "shell", "\"\\\t"⟩

/-- A session that waits for an answer, with a summary and a leap second. -/
def Sample.stored : Session where
  id := "s"
  createdAt := ⟨⟨2016, 12, 31⟩, 23, 59, 60, 250000⟩
  items := [.summary "earlier\n" ⟨⟨0, 2, 29⟩, 0, 0, 0, 0⟩,
    .message ⟨"lead", .assistant "" [Sample.escaped], ⟨⟨9999, 1, 1⟩, 1, 2, 3, 4⟩⟩]
  cost := 1.5
  pending := some ⟨"lead", [Sample.escaped]⟩

/-- The session as it is written, backwards and behind a member nobody knows. -/
def Sample.rearranged : Json :=
  match Sample.stored.toJson with
  | .object members => .object (("note", .text "é") :: members.reverse)
  | v => v

theorem Sample.form_rearranged : Sample.stored.form Sample.rearranged := by
  refine RecordOf.rearranged [("note", .text "é")] Sample.stored.form_toJson ?_ ?_
  · exact ((List.reverse_perm _).cons _).trans (List.perm_append_singleton _ _).symm
  · intro m among
    obtain rfl := List.mem_singleton.mp among
    exact ⟨by decide, _, rfl⟩

theorem Sample.readsBack : ReadsBack 1.5 := by
  have text : floatLayout.float 1.5 = "1.5" := by decide +kernel
  have spelled : render (.float 1.5) = "1.5" := by
    rw [render, Json.float, print, printNumber, text, String.ofList_toList]
  rw [ReadsBack, spelled]
  rfl

theorem written_reads_back_sample :
    Decode.ofText Session.decode Sample.rearranged.render = .ok Sample.stored ∧
      Decode.ofText Event.decode (Event.done "lead" "stop" .zero 1.5).toJson.render =
        .ok (.done "lead" "stop" .zero 1.5) := by
  have floats {xs : List Float} (h : ∀ x ∈ xs, x = 1.5) : ∀ x ∈ xs, ReadsBack x := by
    intro x among
    rw [h x among]
    exact Sample.readsBack
  refine ⟨written_reads_back.1 Sample.stored _ ?_ (floats ?_) Sample.form_rearranged,
    written_reads_back.2.2.1 _ _ (floats ?_) (Event.form_toJson _)⟩
  · intro t among
    simp only [Session.times, Sample.stored, List.map_cons, List.map_nil, List.mem_cons,
      List.not_mem_nil, or_false] at among
    rcases among with rfl | rfl | rfl
    all_goals constructor <;> decide
  · simp [Session.floats, Sample.stored, Session.Item.floats, Message.assistant]
  · simp [Event.floats]

end Ensemble
