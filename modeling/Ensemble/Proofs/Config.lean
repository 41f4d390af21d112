import Ensemble.Proofs.Persistence
import Ensemble.Proofs.Toml.Bounds
import Ensemble.Proofs.Toml.Forms

/-!
# Settings that read back

Each part of the settings is written as a table with the fields its decoder reads, so settings
whose numbers are within what the reader takes and whose variables are sorted are read as they were
written (`read_render`). Whatever was read is so (`gives`), and writing it loses nothing
(`render_reads_back`).

Of floats it is only assumed that each reads back from its own text. Settings with a number beyond
the limit of a file are written as an empty one, but no file gives such a number
(`Settled.render?_eq`).
-/

namespace Ensemble

open Json Toml

deriving instance DecidableEq for Pricing, Config.Provider, Config.Shell, Config.Agent, Config

namespace Config

theorem word32_le (n : UInt32) : n.toNat ≤ maxWhole :=
  Nat.le_of_lt (Nat.lt_trans n.toNat_lt (by decide))

/-! ## Provider -/

def pricingFields (price : Pricing) : List (String × Option Form) := [
  ("input_per_mtok", some (exactly (.float price.input))),
  ("output_per_mtok", some (exactly (.float price.output))),
  ("cached_input_per_mtok", some (exactly (.float price.cachedInput))),
  ("cache_write_per_mtok", some (exactly (.float price.cacheWrite)))]

theorem reads_pricing (price : Pricing) :
    Reads Pricing.decode (RecordOf (pricingFields price)) price := by
  have fields := ((((Fits.required "input_per_mtok" (.float price.input)).map Pricing.mk).seq
    (.required "output_per_mtok" (.float price.output))).seq
    (.defaulted "cached_input_per_mtok" 0 (.float price.cachedInput))).seq
    (.defaulted "cache_write_per_mtok" 0 (.float price.cacheWrite))
  exact .record _ fields (by decide)

/-- A float of 32 bits is written as one of 64, and rounded again when it is read. -/
def roundsTo (x : Float32) : Form := fun v => ∃ y : Float, v = .float y ∧ y.toFloat32 = x

theorem reads_float32 (x : Float32) : Reads Decode.float32 (roundsTo x) x where
  read src v h := by
    obtain ⟨y, rfl, rfl⟩ := h
    rfl
  given v h := by
    obtain ⟨y, rfl, -⟩ := h
    exact Json.noConfusion

def Provider.formFields (p : Provider) : List (String × Option Form) := [
  ("kind", some (exactly (.text p.kind))), ("model", some (exactly (.text p.model))),
  ("api_key_env", some (exactly (.text p.keyVariable))),
  ("base_url", p.baseUrl.map fun s => exactly (.text s)),
  ("max_tokens", p.maxTokens.map fun n => exactly (.nat n.toNat)),
  ("temperature", p.temperature.map roundsTo),
  ("pricing", p.pricing.map fun price => RecordOf (pricingFields price))]

theorem Provider.reads (p : Provider) : Reads Provider.decode (RecordOf p.formFields) p := by
  have fields := (((((((Fits.defaulted "kind" ({} : Provider).kind (.text p.kind)).map
    Provider.mk).seq
    (.defaulted "model" ({} : Provider).model (.text p.model))).seq
    (.defaulted "api_key_env" ({} : Provider).keyVariable (.text p.keyVariable))).seq
    (.optional "base_url" _ p.baseUrl fun s _ => .text s)).seq
    (.optional "max_tokens" _ p.maxTokens fun n _ => .word32 n)).seq
    (.optional "temperature" _ p.temperature fun x _ => reads_float32 x)).seq
    (.optional "pricing" _ p.pricing fun price _ => reads_pricing price)
  exact .record _ fields (by decide)

/-- The floats of the provider read back from the texts that are written for them. -/
structure Provider.FloatsReadBack (p : Provider) : Prop where
  temperature : ∀ x, p.temperature = some x →
    ∃ y, readFloat? x.toFloat = some y ∧ y.toFloat32 = x
  pricing : ∀ price, p.pricing = some price →
    ∀ x ∈ [price.input, price.output, price.cachedInput, price.cacheWrite], readFloat? x = some x

theorem Provider.spells_own {p : Provider} (floats : p.FloatsReadBack) :
    Spells (p.formFields.take 6) (p.sections.head (List.cons_ne_nil _ _)).entries := by
  have start : Spells (p.formFields.take 3) [("kind", .text p.kind), ("model", .text p.model),
      ("api_key_env", .text p.keyVariable)] :=
    .text _ _ (.text _ _ (.text _ _ .nil))
  have url : Spells [("base_url", p.baseUrl.map fun s => exactly (.text s))]
      (entryWhenSome "base_url" .text p.baseUrl) := .whenSome _ fun _ _ => ⟨rfl, trivial⟩
  have tokens : Spells [("max_tokens", p.maxTokens.map fun n => exactly (.nat n.toNat))]
      (entryWhenSome "max_tokens" (fun n => .nat n.toNat) p.maxTokens) :=
    .whenSome _ fun n _ => ⟨rfl, word32_le n⟩
  have temperature : Spells [("temperature", p.temperature.map roundsTo)]
      (entryWhenSome "temperature" (fun x => .float x.toFloat) p.temperature) := by
    refine .whenSome _ fun x given => ?_
    obtain ⟨y, read, rounds⟩ := floats.temperature x given
    have json : (Entry.float x.toFloat).json = .float y := by
      rw [Entry.json, read]
      rfl
    exact ⟨⟨y, json, rounds⟩, y, read⟩
  exact ((start.append url).append tokens).append temperature

theorem Provider.below_pricing {p : Provider} (floats : p.FloatsReadBack) :
    Below "provider" (p.formFields.drop 6) p.sections.tail := by
  obtain ⟨kind, model, keyVariable, baseUrl, maxTokens, temperature, pricing⟩ := p
  cases pricing with
  | none => exact .left _ .nil
  | some price =>
    have back := floats.pricing price rfl
    have spells : Spells (pricingFields price) _ :=
      .float _ (back price.input (by simp)) (.float _ (back price.output (by simp))
        (.float _ (back price.cachedInput (by simp)) (.float _ (back price.cacheWrite (by simp))
        .nil)))
    exact .record "pricing" ⟨rfl, rfl⟩ spells (of_decide_eq_true rfl) .nil

theorem Provider.makes_sections {p : Provider} (floats : p.FloatsReadBack) :
    Makes "provider" p.formFields p.sections :=
  -- The names of the fields are literals, whatever their values.
  makes 6 (of_decide_eq_true rfl) ⟨rfl, rfl⟩ (spells_own floats) (below_pricing floats)

/-! ## Runs, shell and agents -/

theorem reads_size {n : Nat} (fits : n ≤ maxWhole) : Reads Decode.size (exactly (.nat n)) n :=
  .size (Nat.le_trans fits (by decide))

theorem reads_milliseconds {n : Nat} (fits : n ≤ maxWhole) :
    Reads milliseconds (exactly (.nat n)) n := by
  have word : (UInt64.ofNat n).toNat = n := by
    rw [UInt64.toNat_ofNat']
    exact Nat.mod_eq_of_lt (Nat.lt_of_le_of_lt fits (by decide))
  have reads := (Reads.word64 (UInt64.ofNat n)).map UInt64.toNat
  rw [word] at reads
  exact reads

def compactionFields (c : CompactionConfig) : List (String × Option Form) := [
  ("enabled", some (exactly (.bool c.enabled))),
  ("threshold_tokens", some (exactly (.nat c.thresholdTokens)))]

def suggestionsFields (c : SuggestionsConfig) : List (String × Option Form) := [
  ("enabled", some (exactly (.bool c.enabled))), ("max_count", some (exactly (.nat c.maxCount))),
  ("timeout_ms", some (exactly (.nat c.timeout))),
  ("max_tokens", some (exactly (.nat c.maxTokens.toNat)))]

def runFields (r : RunConfig) : List (String × Option Form) := [
  ("max_iterations", some (exactly (.nat r.maxIterations))),
  ("event_buffer", some (exactly (.nat r.eventBuffer))),
  ("compaction", some (RecordOf (compactionFields r.compaction))),
  ("suggestions", some (RecordOf (suggestionsFields r.suggestions)))]

structure RunFits (r : RunConfig) : Prop where
  maxIterations : r.maxIterations ≤ maxWhole
  eventBuffer : r.eventBuffer ≤ maxWhole
  thresholdTokens : r.compaction.thresholdTokens ≤ maxWhole
  maxCount : r.suggestions.maxCount ≤ maxWhole
  timeout : r.suggestions.timeout ≤ maxWhole

theorem reads_run {r : RunConfig} (fits : RunFits r) :
    Reads decodeRun (RecordOf (runFields r)) r := by
  have compaction : Reads decodeCompaction (RecordOf (compactionFields r.compaction))
      r.compaction := by
    have fields := ((Fits.defaulted "enabled" ({} : CompactionConfig).enabled
      (.bool r.compaction.enabled)).map CompactionConfig.mk).seq
      (.defaulted "threshold_tokens" ({} : CompactionConfig).thresholdTokens
        (reads_size fits.thresholdTokens))
    exact .record _ fields (by decide)
  have suggestions : Reads decodeSuggestions (RecordOf (suggestionsFields r.suggestions))
      r.suggestions := by
    have fields := ((((Fits.defaulted "enabled" ({} : SuggestionsConfig).enabled
      (.bool r.suggestions.enabled)).map SuggestionsConfig.mk).seq
      (.defaulted "max_count" ({} : SuggestionsConfig).maxCount (reads_size fits.maxCount))).seq
      (.defaulted "timeout_ms" ({} : SuggestionsConfig).timeout
        (reads_milliseconds fits.timeout))).seq
      (.defaulted "max_tokens" ({} : SuggestionsConfig).maxTokens (.word32 r.suggestions.maxTokens))
    exact .record _ fields (by decide)
  have fields := ((((Fits.defaulted "max_iterations" ({} : RunConfig).maxIterations
    (reads_size fits.maxIterations)).map RunConfig.mk).seq
    (.defaulted "event_buffer" ({} : RunConfig).eventBuffer (reads_size fits.eventBuffer))).seq
    (.defaulted "compaction" ({} : RunConfig).compaction compaction)).seq
    (.defaulted "suggestions" ({} : RunConfig).suggestions suggestions)
  exact .record _ fields (by decide)

theorem makes_runSections {r : RunConfig} (fits : RunFits r) :
    Makes "runtime" (runFields r) (runSections r) := by
  have compaction : Spells (compactionFields r.compaction) _ :=
    .bool _ _ (.nat _ fits.thresholdTokens .nil)
  have suggestions : Spells (suggestionsFields r.suggestions) _ :=
    .bool _ _ (.nat _ fits.maxCount (.nat _ fits.timeout (.nat _ (word32_le _) .nil)))
  exact makes 2 (of_decide_eq_true rfl) ⟨rfl, rfl⟩
    (.nat _ fits.maxIterations (.nat _ fits.eventBuffer .nil))
    (.record "compaction" ⟨rfl, rfl⟩ compaction (of_decide_eq_true rfl)
    (.record "suggestions" ⟨rfl, rfl⟩ suggestions (of_decide_eq_true rfl) .nil))

def variableMembers (environment : List (String × String)) : List (String × Json) :=
  environment.map fun v => (v.1, .text v.2)

theorem reads_variables {environment : List (String × String)} (sorted : Sorted environment) :
    Reads (Decode.map Decode.text) (exactly (.object (variableMembers environment)))
      environment where
  read src v h := by
    have members (vs : List (String × String)) :
        Decode.members (Decode.text src) none (Doc.ofMembers (variableMembers vs)) = .ok vs := by
      induction vs with
      | nil => rfl
      | cons v vs ih =>
        rw [variableMembers, List.map_cons, Doc.ofMembers, Decode.members]
        exact congrArg (fun r => Except.bind (.ok v.1) fun n => Except.bind (.ok v.2) fun a =>
          Except.bind r fun rest => .ok ((n, a) :: rest)) ih
    rw [h, Doc.ofJson, Decode.map, members]
    exact congrArg Except.ok (sortMembers_eq sorted)
  given v h := by
    rw [h]
    exact Json.noConfusion

def Shell.formFields (s : Shell) : List (String × Option Form) := [
  ("quick_timeout_secs", some (exactly (.nat s.quickTimeoutSeconds))),
  ("shell", some (exactly (.texts s.command))),
  ("env", some (exactly (.object (variableMembers s.environment))))]

theorem Shell.reads {s : Shell} (fits : s.quickTimeoutSeconds ≤ maxWhole)
    (sorted : Sorted s.environment) : Reads Shell.decode (RecordOf s.formFields) s := by
  have fields := (((Fits.defaulted "quick_timeout_secs" ({} : Shell).quickTimeoutSeconds
    (reads_milliseconds fits)).map Shell.mk).seq
    (.defaulted "shell" ({} : Shell).command (.texts s.command))).seq
    (.defaulted "env" ({} : Shell).environment (reads_variables sorted))
  exact .record _ fields (by decide)

theorem Shell.makes_sections {s : Shell} (fits : s.quickTimeoutSeconds ≤ maxWhole)
    (sorted : Sorted s.environment) :
    Makes "shell" s.formFields s.sections := by
  let environment : Section :=
    { path := ["shell", "env"], entries := s.environment.map fun v => (v.1, .text v.2) }
  have plain : environment.Plain ["shell", "env"] := by
    refine ⟨rfl, rfl, ?_, fun e among => ?_⟩
    · rw [List.map_map]
      exact sorted.nodup
    · obtain ⟨v, -, rfl⟩ := List.mem_map.mp among
      trivial
  have value : exactly (.object (variableMembers s.environment))
      (.object environment.jsonMembers) := by
    rw [exactly, Section.jsonMembers, List.map_map]
    rfl
  exact makes 2 (of_decide_eq_true rfl) ⟨rfl, rfl⟩ (.nat _ fits (.texts _ _ .nil))
    (.table "env" plain value .nil)

theorem makes_permissionsSection (p : Session.Permissions) :
    Makes "permissions" p.formFields [permissionsSection p] :=
  makes 2 (of_decide_eq_true rfl) ⟨rfl, rfl⟩ (.texts _ _ (.texts _ _ .nil)) .nil

def Agent.formFields (a : Agent) : List (String × Option Form) := [
  ("name", some (exactly (.text a.name))), ("description", some (exactly (.text a.description))),
  ("instructions", some (exactly (.text a.instructions))),
  ("sub_agents", some (exactly (.texts a.subAgents))),
  ("toolsets", some (exactly (.texts a.toolsets))),
  ("add_date", some (exactly (.bool a.addDate))),
  ("add_environment_info", some (exactly (.bool a.addEnvironment))),
  ("num_history_items", a.historyLimit.map fun n => exactly (.nat n))]

theorem Agent.reads {a : Agent} (fits : ∀ n, a.historyLimit = some n → n ≤ maxWhole) :
    Reads Agent.decode (RecordOf a.formFields) a := by
  have fields := ((((((((Fits.defaulted "name" ({} : Agent).name (.text a.name)).map Agent.mk).seq
    (.defaulted "description" ({} : Agent).description (.text a.description))).seq
    (.defaulted "instructions" ({} : Agent).instructions (.text a.instructions))).seq
    (.defaulted "sub_agents" ({} : Agent).subAgents (.texts a.subAgents))).seq
    (.defaulted "toolsets" ({} : Agent).toolsets (.texts a.toolsets))).seq
    (.defaulted "add_date" ({} : Agent).addDate (.bool a.addDate))).seq
    (.defaulted "add_environment_info" ({} : Agent).addEnvironment (.bool a.addEnvironment))).seq
    (.optional "num_history_items" _ a.historyLimit fun n given => reads_size (fits n given))
  exact .record _ fields (by decide)

theorem Agent.spells_toSection {a : Agent}
    (fits : ∀ n, a.historyLimit = some n → n ≤ maxWhole) :
    Spells a.formFields a.toSection.entries := by
  have start : Spells (a.formFields.take 7) [("name", .text a.name),
      ("description", .text a.description), ("instructions", .text a.instructions),
      ("sub_agents", .texts a.subAgents), ("toolsets", .texts a.toolsets),
      ("add_date", .bool a.addDate), ("add_environment_info", .bool a.addEnvironment)] :=
    .text _ _ (.text _ _ (.text _ _ (.texts _ _ (.texts _ _ (.bool _ _ (.bool _ _ .nil))))))
  have limit : Spells [("num_history_items", a.historyLimit.map fun n => exactly (.nat n))]
      (entryWhenSome "num_history_items" .nat a.historyLimit) :=
    .whenSome _ fun n given => ⟨rfl, fits n given⟩
  exact start.append limit

/-! ## Settings -/

/-- What holds of all settings that were read: the numbers are within what the reader takes, and
the variables are sorted. -/
structure Settled (c : Config) : Prop where
  run : RunFits c.run
  quickTimeout : c.shell.quickTimeoutSeconds ≤ maxWhole
  environment : Sorted c.shell.environment
  historyLimit : ∀ a ∈ c.agents, ∀ n, a.historyLimit = some n → n ≤ maxWhole

def completed (c : Config) : Config := { c with agents := c.agentsOrDefault }

def formFields (c : Config) : List (String × Option Form) := [
  ("provider", some (RecordOf c.provider.formFields)),
  ("runtime", some (RecordOf (runFields c.run))),
  ("shell", some (RecordOf c.shell.formFields)), ("permissions", some c.permissions.form),
  ("agents", some (listOf (c.agentsOrDefault.map fun a => RecordOf a.formFields)))]

theorem Settled.historyLimits {c : Config} (settled : c.Settled) :
    ∀ a ∈ c.agentsOrDefault, ∀ n, a.historyLimit = some n → n ≤ maxWhole := by
  unfold agentsOrDefault
  split
  · intro a among n given
    rw [List.mem_singleton.mp among] at given
    cases given
  · exact settled.historyLimit

theorem reads {c : Config} (settled : c.Settled) :
    Reads Config.decode (RecordOf c.formFields) c.completed := by
  have agents : Reads (Decode.list Agent.decode)
      (listOf (c.agentsOrDefault.map fun a => RecordOf a.formFields)) c.agentsOrDefault :=
    .list _ c.agentsOrDefault fun a among => Agent.reads (settled.historyLimits a among)
  have fields := (((((Fits.defaulted "provider" {} c.provider.reads).map Config.mk).seq
    (.defaulted "runtime" {} (reads_run settled.run))).seq
    (.defaulted "shell" {} (Shell.reads settled.quickTimeout settled.environment))).seq
    (.defaulted "permissions" {} c.permissions.reads)).seq (.defaulted "agents" [] agents)
  exact .record _ fields (by decide)

theorem agentsOrDefault_ne_nil (c : Config) : c.agentsOrDefault ≠ [] := by
  unfold agentsOrDefault
  split
  · exact List.cons_ne_nil _ _
  · rename_i some
    intro none
    rw [none] at some
    exact some rfl

theorem tables {c : Config} (settled : c.Settled) (floats : c.provider.FloatsReadBack) :
    Tables (c.formFields.take 4) (c.provider.sections ++ (runSections c.run ++ (c.shell.sections ++
      ([permissionsSection c.permissions] ++ [])))) :=
  .table (Provider.makes_sections floats) (.table (makes_runSections settled.run)
    (.table (Shell.makes_sections settled.quickTimeout settled.environment)
    (.table (makes_permissionsSection c.permissions) .nil)))

/-! ### What can be written -/

theorem entryWhenSome_writable {α : Type} (name : String) {f : α → Entry} {o : Option α}
    (h : ∀ a, o = some a → (f a).isWritable = true) :
    (entryWhenSome name f o).all (·.2.isWritable) = true := by
  cases o with
  | none => rfl
  | some a => simp [entryWhenSome, h a rfl]

theorem Provider.writable (p : Provider) : p.sections.all Section.isWritable = true := by
  have url := entryWhenSome_writable "base_url" (f := .text) (o := p.baseUrl) fun _ _ => rfl
  have tokens := entryWhenSome_writable "max_tokens" (f := fun n => .nat n.toNat)
    (o := p.maxTokens) fun n _ => decide_eq_true (word32_le n)
  have temperature := entryWhenSome_writable "temperature" (f := fun x => .float x.toFloat)
    (o := p.temperature) fun _ _ => rfl
  have pricing (f : Pricing → Section) (h : ∀ price, (f price).isWritable = true) :
      (p.pricing.map f).toList.all Section.isWritable = true := by
    cases p.pricing with
    | none => rfl
    | some price => simp [h]
  rw [Provider.sections, List.all_cons, pricing _ fun _ => rfl, Section.isWritable]
  simp only [List.all_append, url, tokens, temperature]
  rfl

theorem runSections_writable {r : RunConfig} (fits : RunFits r) :
    (runSections r).all Section.isWritable = true := by
  simp [runSections, Section.isWritable, Entry.isWritable, fits.maxIterations, fits.eventBuffer,
    fits.thresholdTokens, fits.maxCount, fits.timeout, word32_le]

theorem Shell.writable {s : Shell} (fits : s.quickTimeoutSeconds ≤ maxWhole) :
    s.sections.all Section.isWritable = true := by
  simp [Shell.sections, Section.isWritable, Entry.isWritable, fits]

theorem Agent.writable {a : Agent} (fits : ∀ n, a.historyLimit = some n → n ≤ maxWhole) :
    a.toSection.isWritable = true := by
  have limit := entryWhenSome_writable "num_history_items" (f := .nat) (o := a.historyLimit)
    fun n given => decide_eq_true (fits n given)
  rw [Agent.toSection, Section.isWritable, List.all_append, limit]
  rfl

/-- The numbers of settings that were read fit into a file again. -/
theorem Settled.render?_eq {c : Config} (settled : c.Settled) :
    Toml.render? c.sections = some (Toml.render c.sections) := by
  have agents : (c.agentsOrDefault.map Agent.toSection).all Section.isWritable = true := by
    rw [List.all_map, List.all_eq_true]
    exact fun a among => Agent.writable (settled.historyLimits a among)
  apply if_pos
  rw [Config.sections]
  simp only [List.all_append, Provider.writable, runSections_writable settled.run,
    Shell.writable settled.quickTimeout, agents]
  rfl

theorem Settled.render_eq {c : Config} (settled : c.Settled) :
    c.render = Toml.render c.sections := by
  rw [render, settled.render?_eq, Option.getD_some]

/-- What is written for settings is read as these settings, the default agent filled in. -/
theorem read_render {c : Config} (settled : c.Settled) (floats : c.provider.FloatsReadBack) :
    Config.read c.render = .ok c.completed := by
  obtain ⟨a, as, agents⟩ := List.exists_cons_of_ne_nil (agentsOrDefault_ne_nil c)
  have limits := settled.historyLimits
  rw [agents] at limits
  obtain ⟨table, v, read, shown, form⟩ := (tables settled floats).reads (of_decide_eq_true rfl)
    (fun b : Agent => ⟨rfl, rfl⟩) Agent.formFields
    fun b among => ⟨Agent.spells_toSection (limits b among), of_decide_eq_true rfl⟩
  have sections : c.sections = (c.provider.sections ++ (runSections c.run ++ (c.shell.sections ++
      ([permissionsSection c.permissions] ++ [])))) ++ (a :: as).map Agent.toSection := by
    simp only [Config.sections, agents, List.append_assoc, List.append_nil]
  rw [← agents] at form
  rw [Config.read, settled.render_eq, sections, read]
  simp only [shown, (Config.reads settled).read .settings v form]

/-! ## Settings that were read -/

open Json (Gives)

theorem gives_size {n : Nat} (fits : n ≤ maxWhole) (name : String) :
    (Fields.defaulted name n Decode.size).Gives maxWhole (· ≤ maxWhole) :=
  .defaulted name fits .size

theorem gives_milliseconds {n : Nat} (fits : n ≤ maxWhole) (name : String) :
    (Fields.defaulted name n milliseconds).Gives maxWhole (· ≤ maxWhole) := by
  refine .defaulted name fits ?_
  intro src d ms within read
  obtain ⟨word, given, rfl⟩ := map_eq_ok read
  exact Gives.word64 src d word within given

theorem gives_compaction :
    Gives maxWhole decodeCompaction fun c => c.thresholdTokens ≤ maxWhole := by
  refine .record _ (.seq (.map (.any _ _ _) ?_) (gives_size (by decide) _))
  exact fun _ _ _ fits => fits

theorem gives_suggestions :
    Gives maxWhole decodeSuggestions fun c => c.maxCount ≤ maxWhole ∧ c.timeout ≤ maxWhole := by
  refine .record _ (.seq (.seq (.seq (.map (.any _ _ _) ?_) (gives_size (by decide) _))
    (gives_milliseconds (by decide) _)) (.any _ _ _))
  exact fun _ _ _ count _ timeout _ _ => ⟨count, timeout⟩

theorem gives_run : Gives maxWhole decodeRun RunFits := by
  refine .record _ (.seq (.seq (.seq (.map (gives_size (by decide) _) ?_)
    (gives_size (by decide) _)) (.defaulted _ (by decide) gives_compaction))
    (.defaulted _ (by decide) gives_suggestions))
  exact fun _ iterations _ buffer _ threshold _ suggestions =>
    ⟨iterations, buffer, threshold, suggestions.1, suggestions.2⟩

theorem Shell.gives : Gives maxWhole Shell.decode fun s =>
    s.quickTimeoutSeconds ≤ maxWhole ∧ Sorted s.environment := by
  refine .record _ (.seq (.seq (.map (gives_milliseconds (by decide) _) ?_) (.any _ _ _))
    (.defaulted _ List.Pairwise.nil (.map _)))
  exact fun _ fits _ _ _ sorted => ⟨fits, sorted⟩

theorem Agent.gives : Gives maxWhole Agent.decode fun a =>
    ∀ n, a.historyLimit = some n → n ≤ maxWhole := by
  refine .record _ (.seq (.seq (.seq (.seq (.seq (.seq (.seq (.map (.any _ _ _) ?_) (.any _ _ _))
    (.any _ _ _)) (.any _ _ _)) (.any _ _ _)) (.any _ _ _)) (.any _ _ _)) (.optional _ .size))
  exact fun _ _ _ _ _ _ _ _ _ _ _ _ _ _ _ fits => fits

theorem gives : Gives maxWhole Config.decode Settled := by
  refine .record _ (.seq (.seq (.seq (.seq (.map (.any _ _ _) ?_)
    (.defaulted _ (by constructor <;> decide) gives_run))
    (.defaulted _ ⟨by decide, List.Pairwise.nil⟩ Shell.gives)) (.any _ _ _))
    (.defaulted _ (List.forall_mem_nil _) Agent.gives.list))
  exact fun _ _ _ run _ shell _ _ _ agents => ⟨run, shell.1, shell.2, agents⟩

theorem settled_of_read {t : String} {c : Config} (h : Config.read t = .ok c) : c.Settled := by
  unfold Config.read at h
  split at h
  · cases h
  · rename_i table read
    split at h
    · rename_i decoded
      cases h
      exact gives _ _ c (within_of_read read _) decoded
    · cases h

/-! ## Settings that were written -/

theorem agentsOrDefault_completed (c : Config) :
    c.completed.agentsOrDefault = c.agentsOrDefault := by
  have some : c.completed.agents.isEmpty = false :=
    List.isEmpty_eq_false_iff.mpr (agentsOrDefault_ne_nil c)
  rw [agentsOrDefault, if_neg (by rw [some]; exact Bool.false_ne_true)]
  rfl

theorem render_completed (c : Config) : c.completed.render = c.render := by
  rw [render, render, sections, agentsOrDefault_completed]
  rfl

/-- Settings that were read can be written, and survive being written and read again, but for the
agent that is filled in. That one changes neither what is written next nor how the program runs. -/
theorem render_reads_back {t : String} {c : Config} (given : Config.read t = .ok c)
    (floats : c.provider.FloatsReadBack) :
    Toml.render? c.sections = some c.render ∧
      Config.read c.render = .ok c.completed ∧ c.completed.render = c.render ∧
      c.completed.run = c.run ∧
      (∀ directory, c.completed.shellConfig directory = c.shellConfig directory) ∧
      ∀ (σ : Type) (model : Model σ) (shell : ToolSet σ),
        c.completed.team model shell = c.team model shell := by
  have settled := settled_of_read given
  refine ⟨?_, read_render settled floats, render_completed c, rfl, fun _ => rfl, ?_⟩
  · rw [settled.render_eq, settled.render?_eq]
  intro σ model shell
  rw [team, team, agentsOrDefault_completed]

/-- A file with prices, and with quotes, a backslash and a line end in a variable. -/
def Sample.text : String :=
  "[provider.pricing]\ninput_per_mtok = 1.5\noutput_per_mtok = 7.5\n\n" ++
    "[shell.env]\n\"a b\" = \"it's\\t\\\"so\\\"\\n\\\\\"\n"

def Sample.settings : Config where
  provider := { pricing := some ⟨1.5, 7.5, 0, 0⟩ }
  shell := { environment := [("a b", "it's\t\"so\"\n\\")] }

theorem Sample.read_text : Config.read Sample.text = .ok Sample.settings := by
  have parsed : (Config.read Sample.text).toOption = some Sample.settings := by decide +kernel
  cases read : Config.read Sample.text with
  | error e =>
    rw [read] at parsed
    cases parsed
  | ok c =>
    rw [read] at parsed
    exact congrArg _ (Option.some.inj parsed)

theorem Sample.floats : Sample.settings.provider.FloatsReadBack where
  temperature _ none := by cases none
  pricing price same := by
    cases same
    decide +kernel

theorem render_reads_back_sample :
    Config.read Sample.text = .ok Sample.settings ∧
      Toml.render? Sample.settings.sections = some Sample.settings.render ∧
      Config.read Sample.settings.render = .ok { Sample.settings with agents := [{}] } ∧
      Sample.settings.completed.render = Sample.settings.render :=
  have back := render_reads_back Sample.read_text Sample.floats
  ⟨Sample.read_text, back.1, back.2.1, back.2.2.1⟩

end Config

end Ensemble
