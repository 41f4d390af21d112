import Ensemble.Message
import Ensemble.Proofs.Json.Sorted
import Ensemble.Proofs.Text.Utf8
import Ensemble.Tool.Registry

/-!
# What a registry answers

Only the last tool of each name counts, so a registry is known by `Registry.last?`: it lists the
names in the order of their bytes, each with its last tool, whatever order tools of different names
came in (`Registry.Holds`). A call fails only when its arguments cannot be read or the tool refuses
them, and then it names the tool; a tool that is missing is reported in the result
(`Registry.registered_answers`).
-/

namespace Ensemble

variable {σ : Type}

/-! ## Arguments of calls -/

/-- The value of the arguments of a call. Blank text stands for an empty object. -/
inductive ToolCall.Carries (call : ToolCall) : Json → Prop where
  | nothing (blank : Text.isBlankText call.arguments = true) : Carries call (.object [])
  | value {v : Json} (given : Text.isBlankText call.arguments = false)
      (read : Json.parse call.arguments = .ok v) : Carries call v

def ToolCall.Garbled (call : ToolCall) : Prop :=
  Text.isBlankText call.arguments = false ∧ ∀ v, Json.parse call.arguments ≠ .ok v

theorem ToolCall.carries_iff {call : ToolCall} {v : Json} :
    call.Carries v ↔ call.parseArguments = .ok v := by
  unfold parseArguments
  constructor
  · rintro (blank | ⟨given, read⟩)
    · exact if_pos blank
    · rw [given]
      exact read
  · intro h
    split at h
    · rename_i blank
      cases h
      exact .nothing blank
    · rename_i given
      exact .value (Bool.eq_false_iff.mpr given) h

theorem ToolCall.garbled_iff {call : ToolCall} :
    call.Garbled ↔ ∃ e, call.parseArguments = .error e := by
  unfold Garbled parseArguments readArguments
  cases blank : Text.isBlankText call.arguments with
  | true => simp
  | false =>
    cases read : Json.parse call.arguments with
    | error e => simp
    | ok v => simp

namespace Registry

/-! ## What is registered -/

def last? (ts : List (Tool σ)) (name : String) : Option (Tool σ) :=
  (ts.filter fun t => t.name == name).getLast?

theorem last?_append (ts : List (Tool σ)) (t : Tool σ) (name : String) :
    last? (ts ++ [t]) name = if name = t.name then some t else last? ts name := by
  unfold last?
  rw [List.filter_append, List.filter_singleton]
  by_cases same : name = t.name
  · rw [if_pos same, same]
    simp
  · rw [if_neg same, beq_false_of_ne (Ne.symm same)]
    simp

theorem name_of_last? {ts : List (Tool σ)} {name : String} {t : Tool σ}
    (h : last? ts name = some t) : t ∈ ts ∧ t.name = name := by
  have among := List.mem_filter.mp (List.mem_of_getLast? h)
  exact ⟨among.1, beq_iff_eq.mp among.2⟩

theorem isSome_last? {ts : List (Tool σ)} {name : String} :
    (last? ts name).isSome ↔ ∃ t ∈ ts, t.name = name := by
  constructor
  · intro h
    obtain ⟨t, last⟩ := Option.isSome_iff_exists.mp h
    exact ⟨t, name_of_last? last⟩
  · rintro ⟨t, among, named⟩
    apply List.getLast?_isSome.mpr
    exact List.ne_nil_of_mem (List.mem_filter.mpr ⟨among, beq_iff_eq.mpr named⟩)

/-- The registry has the last tool of each name, sorted by name. -/
structure Holds (r : Registry σ) (ts : List (Tool σ)) : Prop where
  sorted : Json.Sorted r.entries
  get? : ∀ name, r.get? name = last? ts name

namespace Holds

variable {r r' : Registry σ} {ts ts' : List (Tool σ)}

theorem empty : (Registry.empty : Registry σ).Holds [] := ⟨.nil, fun _ => rfl⟩

theorem register (h : r.Holds ts) (t : Tool σ) : (r.register t).Holds (ts ++ [t]) where
  sorted := h.sorted.insert t.name t
  get? name := by
    have found := Json.lookup_insert t.name t r.entries name
    rw [last?_append, ← h.get?]
    exact found

theorem registerAll (h : r.Holds ts) (ts' : List (Tool σ)) :
    (r.registerAll ts').Holds (ts ++ ts') := by
  induction ts' generalizing r ts with
  | nil => rwa [List.append_nil]
  | cons t ts' ih =>
    have next := ih (h.register t)
    rwa [List.append_assoc] at next

/-- Nothing else is to be known of a registry. -/
theorem unique (h : r.Holds ts) (h' : r'.Holds ts') (same : ∀ name, last? ts name = last? ts' name) :
    r = r' := by
  have entries : r.entries = r'.entries := by
    apply h.sorted.ext h'.sorted
    intro name
    exact (h.get? name).trans ((same name).trans (h'.get? name).symm)
  exact congrArg Registry.mk entries

theorem mem_names_iff (h : r.Holds ts) {name : String} :
    name ∈ r.names ↔ ∃ t ∈ ts, t.name = name := by
  rw [← isSome_last?, ← h.get?, names, Registry.get?, List.mem_map]
  constructor
  · rintro ⟨⟨name, t⟩, among, rfl⟩
    rw [h.sorted.lookup_eq_some_iff.mpr among]
    rfl
  · intro found
    obtain ⟨t, found⟩ := Option.isSome_iff_exists.mp found
    exact ⟨(name, t), h.sorted.lookup_eq_some_iff.mp found, rfl⟩

theorem last?_of_mem (h : r.Holds ts) {m : String × Tool σ} (among : m ∈ r.entries) :
    last? ts m.1 = some m.2 := by
  rw [← h.get?]
  exact h.sorted.lookup_eq_some_iff.mpr among

theorem names_sorted (h : r.Holds ts) :
    r.names.Pairwise fun a b => Text.Utf8.encode a < Text.Utf8.encode b := by
  apply List.pairwise_map.mpr
  exact h.sorted.imp Text.Utf8.encode_lt_iff.mpr

theorem definitions_eq (h : r.Holds ts) :
    r.definitions.map some = r.names.map fun name => (last? ts name).map Tool.definition := by
  rw [definitions, names, List.map_map, List.map_map]
  apply List.map_congr_left
  intro m among
  rw [Function.comp_apply, Function.comp_apply, h.last?_of_mem among, Option.map_some]

theorem definitions_names (h : r.Holds ts) : r.definitions.map (·.name) = r.names := by
  rw [definitions, names, List.map_map]
  apply List.map_congr_left
  intro m among
  exact (name_of_last? (h.last?_of_mem among)).2

end Holds

/-! ## Calls -/

variable (r : Registry σ) {call : ToolCall} (cancelled : Bool) (world : σ)

theorem executeCall_garbled (garbled : call.Garbled) :
    ∃ message, r.executeCall call cancelled world =
      (⟨.error (.invalidArguments call.name message), false⟩, world) := by
  obtain ⟨e, parsed⟩ := ToolCall.garbled_iff.mp garbled
  refine ⟨e.message, ?_⟩
  rw [executeCall, parsed]

theorem executeCall_missing {v : Json} (carries : call.Carries v)
    (missing : r.get? call.name = none) :
    r.executeCall call cancelled world = (⟨.ok (notFound call.name), false⟩, world) := by
  rw [executeCall, ToolCall.carries_iff.mp carries]
  simp only [execute, missing]

theorem executeCall_found {v : Json} {t : Tool σ} (carries : call.Carries v)
    (found : r.get? call.name = some t) :
    r.executeCall call cancelled world =
      (⟨(t.execute v cancelled world).1.result.mapError (ToolError.toError · call.name),
        (t.execute v cancelled world).1.cancels⟩, (t.execute v cancelled world).2) := by
  rw [executeCall, ToolCall.carries_iff.mp carries]
  simp only [execute, found]
  cases (t.execute v cancelled world).1.result <;> rfl

def Refused (ts : List (Tool σ)) (call : ToolCall) (cancelled : Bool) (world : σ) : Prop :=
  ∃ v t e, call.Carries v ∧ last? ts call.name = some t ∧
    (t.execute v cancelled world).1.result = .error e

namespace Holds

variable {r : Registry σ} {ts : List (Tool σ)} (h : r.Holds ts)
include h

theorem executeCall_refused {cancelled : Bool} {world : σ}
    (refused : Refused ts call cancelled world) :
    ∃ message, (r.executeCall call cancelled world).1.result =
      .error (.invalidArguments call.name message) := by
  obtain ⟨v, t, e, carries, last, failed⟩ := refused
  refine ⟨e.text, ?_⟩
  rw [r.executeCall_found cancelled world carries ((h.get? _).trans last), failed]
  rfl

theorem of_executeCall_error {cancelled : Bool} {world : σ} {e : Error}
    (failed : (r.executeCall call cancelled world).1.result = .error e) :
    (call.Garbled ∨ Refused ts call cancelled world) ∧
      ∃ message, e = .invalidArguments call.name message := by
  cases parsed : call.parseArguments with
  | error why =>
    have garbled := ToolCall.garbled_iff.mpr ⟨why, parsed⟩
    obtain ⟨message, answer⟩ := r.executeCall_garbled cancelled world garbled
    rw [answer] at failed
    cases failed
    exact ⟨.inl garbled, message, rfl⟩
  | ok v =>
    have carries := ToolCall.carries_iff.mpr parsed
    cases last : last? ts call.name with
    | none =>
      rw [r.executeCall_missing cancelled world carries ((h.get? _).trans last)] at failed
      cases failed
    | some t =>
      rw [r.executeCall_found cancelled world carries ((h.get? _).trans last)] at failed
      cases refused : (t.execute v cancelled world).1.result with
      | ok result =>
        rw [refused] at failed
        cases failed
      | error refusal =>
        rw [refused] at failed
        cases failed
        exact ⟨.inr ⟨v, t, refusal, carries, last, refused⟩, refusal.text, rfl⟩

theorem executeCall_unregistered {v : Json} (carries : call.Carries v)
    (unregistered : ∀ t ∈ ts, t.name ≠ call.name) :
    r.executeCall call cancelled world = (⟨.ok (notFound call.name), false⟩, world) := by
  apply r.executeCall_missing cancelled world carries
  rw [h.get?]
  cases last : last? ts call.name with
  | none => rfl
  | some t =>
    obtain ⟨among, named⟩ := name_of_last? last
    exact absurd named (unregistered t among)

theorem executeCall_answered {v : Json} {t : Tool σ} {result : ToolResult}
    (carries : call.Carries v) (last : last? ts call.name = some t)
    (answered : (t.execute v cancelled world).1.result = .ok result) :
    r.executeCall call cancelled world =
      (⟨.ok result, (t.execute v cancelled world).1.cancels⟩, (t.execute v cancelled world).2) := by
  rw [r.executeCall_found cancelled world carries ((h.get? _).trans last), answered]
  rfl

end Holds

/-! ## All answers -/

/-- The same tools, those of each name in the same order. -/
structure Rearranged (ts ts' : List (Tool σ)) : Prop where
  perm : ts.Perm ts'
  each : ∀ name, (ts.filter fun t => t.name == name) = ts'.filter fun t => t.name == name

/-- What a registry says of the tools that were registered one after the other, and what it makes of
calls. -/
theorem registered_answers (ts : List (Tool σ)) :
    let r := Registry.empty.registerAll ts
    (r.names.Pairwise fun a b => Text.Utf8.encode a < Text.Utf8.encode b) ∧
    (∀ name, name ∈ r.names ↔ ∃ t ∈ ts, t.name = name) ∧
    r.definitions.map (·.name) = r.names ∧
    (r.definitions.map some = r.names.map fun name => (last? ts name).map Tool.definition) ∧
    (∀ ts', Rearranged ts ts' → Registry.empty.registerAll ts' = r) ∧
    ∀ (call : ToolCall) (cancelled : Bool) (world : σ),
      let reply := r.executeCall call cancelled world
      ((∃ message, reply.1.result = .error (.invalidArguments call.name message)) ↔
        call.Garbled ∨ Refused ts call cancelled world) ∧
      (∀ e, reply.1.result = .error e → ∃ message, e = .invalidArguments call.name message) ∧
      (∀ v, call.Carries v → (∀ t ∈ ts, t.name ≠ call.name) →
        reply = (⟨.ok (notFound call.name), false⟩, world)) ∧
      ∀ v t result, call.Carries v → last? ts call.name = some t →
        (t.execute v cancelled world).1.result = .ok result →
        reply = (⟨.ok result, (t.execute v cancelled world).1.cancels⟩,
          (t.execute v cancelled world).2) := by
  intro r
  have h : r.Holds ts := Holds.empty.registerAll ts
  refine ⟨h.names_sorted, fun _ => h.mem_names_iff, h.definitions_names, h.definitions_eq, ?_, ?_⟩
  · intro ts' rearranged
    have h' : (Registry.empty.registerAll ts').Holds ts' := Holds.empty.registerAll ts'
    exact h'.unique h fun name => congrArg List.getLast? (rearranged.each name).symm
  · intro call cancelled world reply
    refine ⟨⟨?_, ?_⟩, fun e failed => (h.of_executeCall_error failed).2, ?_, ?_⟩
    · rintro ⟨message, failed⟩
      exact (h.of_executeCall_error failed).1
    · rintro (garbled | refused)
      · obtain ⟨message, answer⟩ := r.executeCall_garbled cancelled world garbled
        exact ⟨message, congrArg (·.1.result) answer⟩
      · exact h.executeCall_refused refused
    · intro v carries unregistered
      exact h.executeCall_unregistered cancelled world carries unregistered
    · intro v t result carries last answered
      exact h.executeCall_answered cancelled world carries last answered

end Registry

/-! ## A sample

Two tools are called `b`, of which the later one refuses everything. -/

namespace Sample

def plainTool (name : String) (result : Except ToolError ToolResult) : Tool Unit where
  name := name
  description := name
  inputSchema := .null
  execute _ _ world := (⟨result, false⟩, world)

def toolbox : List (Tool Unit) :=
  [plainTool "b" (.ok (.text "old")), plainTool "a" (.ok (.text "fine")),
    plainTool "b" (.error ⟨"not today"⟩)]

def shuffledToolbox : List (Tool Unit) :=
  [plainTool "b" (.ok (.text "old")), plainTool "b" (.error ⟨"not today"⟩),
    plainTool "a" (.ok (.text "fine"))]

theorem toolbox_rearranged : Registry.Rearranged toolbox shuffledToolbox where
  perm := .cons _ (.swap _ _ _)
  each name := by
    simp only [toolbox, shuffledToolbox, plainTool, List.filter_cons, List.filter_nil]
    by_cases b : "b" = name
    · subst b
      rfl
    · simp [b]

theorem carries_blank (name : String) : (⟨"1", name, " "⟩ : ToolCall).Carries (.object []) :=
  .nothing (by simp [Text.isBlankText, Text.isBlank])

end Sample

theorem Registry.registered_answers_toolbox :
    let r : Registry Unit := Registry.empty.registerAll Sample.toolbox
    r.names = ["a", "b"] ∧
      Registry.empty.registerAll Sample.shuffledToolbox = r ∧
      (r.executeCall ⟨"1", "a", " "⟩ false ()).1.result = .ok (.text "fine") ∧
      (∃ message, (r.executeCall ⟨"1", "b", " "⟩ false ()).1.result =
        .error (.invalidArguments "b" message)) ∧
      (r.executeCall ⟨"1", "c", " "⟩ false ()).1.result = .ok (.error "Tool not found: c") := by
  intro r
  obtain ⟨-, -, -, -, rearranged, calls⟩ := Registry.registered_answers Sample.toolbox
  refine ⟨rfl, rearranged _ Sample.toolbox_rearranged, ?_, ?_, ?_⟩
  · obtain ⟨-, -, -, answered⟩ := calls ⟨"1", "a", " "⟩ false ()
    exact congrArg (·.1.result) (answered _ _ _ (Sample.carries_blank "a") rfl rfl)
  · obtain ⟨failed, -⟩ := calls ⟨"1", "b", " "⟩ false ()
    exact failed.mpr (.inr ⟨_, _, _, Sample.carries_blank "b", rfl, rfl⟩)
  · obtain ⟨-, -, unregistered, -⟩ := calls ⟨"1", "c", " "⟩ false ()
    exact congrArg (·.1.result) (unregistered _ (Sample.carries_blank "c") (by decide))

end Ensemble
