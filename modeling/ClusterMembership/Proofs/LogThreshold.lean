import ClusterMembership.Log

/-!
# What the loggers of a service write

A logger that is made from another one takes over its level and its sink, so both write entries of the same levels.
Outside a test run the level of a service is the one that the environment names, or else the one of its settings.
Either is one of the five, and all entries from it upwards are written, those of the highest level always.

But the names that every object inherits pass for levels in the environment as well.  Such a name has no severity and
compares with none, so the logger that takes it for its level writes nothing at all, and neither does any logger below.
-/

namespace ClusterMembership

namespace LogLevel

@[simp]
theorem ofName?_name (level : LogLevel) : ofName? level.name = some level := by
  cases level <;> rfl

theorem severity_le_fatal (level : LogLevel) : level.severity ≤ fatal.severity := by
  cases level <;> decide

theorem ofName?_of_mem_inheritedNames {name : String} (h : name ∈ inheritedNames) : ofName? name = none := by
  revert name
  decide

end LogLevel

namespace Environment

/-- What the environment sets for the level of the log; nothing counts as the empty text. -/
def logLevel (environment : Environment) : String := (environment.get? "LOG_LEVEL").getD ""

/-- The environment sets a name for the level that every object inherits. -/
def InheritsLevel (environment : Environment) : Prop := environment.logLevel ∈ LogLevel.inheritedNames

instance (environment : Environment) : Decidable environment.InheritsLevel := inferInstanceAs (Decidable (_ ∈ _))

def levelOr (environment : Environment) (given : LogLevel) : LogLevel :=
  (LogLevel.ofName? environment.logLevel).getD given

end Environment

/-- Settings as they are given for a service: a level of the five, which may be left out for the default, and a sink
that takes entries, since silence is for test runs alone. -/
structure LoggerSettings.Asks (settings : LoggerSettings) (level : LogLevel) : Prop where
  level : settings.level.getD LogLevel.info.name = level.name
  sink : settings.sink ≠ .silence

structure LogCall where
  now : Instant
  level : LogLevel
  message : String
  attachment : LogAttachment := {}

namespace Logger

/-- A logger that is made from another one in any number of steps. -/
inductive Below (root : Logger) : Logger → Prop
  | self : Below root root
  | child {logger : Logger} (h : Below root logger) (context : Members) : Below root (logger.child context)
  | withDatanode {logger : Logger} (h : Below root logger) (identity : Field) :
    Below root (logger.withDatanode identity)

def entryOf (logger : Logger) (call : LogCall) : LogEntry where
  timestamp := call.now
  level := call.level
  message := call.message
  context := Members.merge logger.context call.attachment.context
  error := call.attachment.error.map ErrorSummary.ofFailure

def written (logger : Logger) (call : LogCall) : List WrittenEntry :=
  logger.write call.now call.level call.message call.attachment

/-- A call makes a logger hand its entry to the sink, once. -/
def Emits (logger : Logger) (call : LogCall) : Prop :=
  ∃ shown, logger.deliver (logger.entryOf call) = [shown] ∧ logger.written call = [shown]

/-! ## Loggers below another one -/

/-- A logger below another one differs from it by its context at most. -/
theorem Below.exists_eq {root logger : Logger} (h : root.Below logger) :
    ∃ context, logger = { root with context := context } := by
  induction h with
  | self => exact ⟨root.context, rfl⟩
  | child _ added ih =>
    obtain ⟨context, rfl⟩ := ih
    exact ⟨_, rfl⟩
  | withDatanode _ identity ih =>
    obtain ⟨context, rfl⟩ := ih
    cases identity <;> exact ⟨_, rfl⟩

theorem Below.level_eq {root logger : Logger} (h : root.Below logger) : logger.level = root.level := by
  obtain ⟨context, rfl⟩ := h.exists_eq
  rfl

theorem Below.sink_eq {root logger : Logger} (h : root.Below logger) : logger.sink = root.sink := by
  obtain ⟨context, rfl⟩ := h.exists_eq
  rfl

/-! ## Writing by level -/

variable {logger : Logger} {own : LogLevel}

theorem isEnabled_of_level (h : LogLevel.ofName? logger.level = some own) (asked : LogLevel) :
    logger.isEnabled asked.name = decide (own.severity ≤ asked.severity) := by
  simp only [isEnabled, LogLevel.ofName?_name, h]

theorem isEnabled_of_no_level (h : LogLevel.ofName? logger.level = none) (asked : LogLevel) :
    logger.isEnabled asked.name = false := by
  simp only [isEnabled, LogLevel.ofName?_name, h]

theorem written_eq (logger : Logger) (call : LogCall) :
    logger.written call = if logger.isEnabled call.level.name then logger.deliver (logger.entryOf call) else [] := by
  unfold written write entryFor
  split <;> rfl

/-- Every sink but silence takes an entry as one thing. -/
theorem exists_deliver_eq (h : logger.sink ≠ .silence) (entry : LogEntry) :
    ∃ shown, logger.deliver entry = [shown] := by
  unfold deliver
  cases hsink : logger.sink with
  | silence => exact absurd hsink h
  | function => exact ⟨_, rfl⟩
  | console coloured => cases coloured <;> exact ⟨_, rfl⟩

theorem emits_iff_isEnabled (h : logger.sink ≠ .silence) (call : LogCall) :
    logger.Emits call ↔ logger.isEnabled call.level.name = true := by
  rw [Emits, written_eq]
  by_cases henabled : logger.isEnabled call.level.name = true
  · obtain ⟨shown, hshown⟩ := exists_deliver_eq h (logger.entryOf call)
    rw [if_pos henabled]
    exact iff_of_true ⟨shown, hshown, hshown⟩ henabled
  · rw [if_neg henabled]
    exact iff_of_false (by simp) henabled

/-- What is not an entry handed to the sink is nothing. -/
theorem emits_or_written_eq_nil (h : logger.sink ≠ .silence) (call : LogCall) :
    logger.Emits call ∨ logger.written call = [] := by
  rw [emits_iff_isEnabled h, written_eq]
  by_cases henabled : logger.isEnabled call.level.name = true
  · exact .inl henabled
  · exact .inr (if_neg henabled)

/-! ## The level of a service -/

variable {environment : Environment} {settings : LoggerSettings} {configured : LogLevel}

theorem serviceSettings_of_not_test (hservice : isTestEnvironment environment = false) (settings : LoggerSettings) :
    serviceSettings environment settings =
      if LogLevel.accepts environment.logLevel then { settings with level := some environment.logLevel }
      else settings := by
  simp only [serviceSettings, hservice, Bool.false_and, Bool.false_eq_true, if_false]
  rfl

theorem sink_createService (hservice : isTestEnvironment environment = false) (settings : LoggerSettings)
    (context : Members) : (createService environment settings context).sink = settings.sink := by
  rw [createService, serviceSettings_of_not_test hservice]
  split <;> rfl

/-- An inherited name is taken for the level, but it is none. -/
theorem level_createService_of_inheritsLevel (hservice : isTestEnvironment environment = false)
    (hinherits : environment.InheritsLevel) (settings : LoggerSettings) (context : Members) :
    LogLevel.ofName? (createService environment settings context).level = none := by
  have haccepted : LogLevel.accepts environment.logLevel = true := by
    rw [LogLevel.accepts, List.contains_iff_mem.mpr hinherits, Bool.or_true]
  rw [createService, serviceSettings_of_not_test hservice, if_pos haccepted]
  exact LogLevel.ofName?_of_mem_inheritedNames hinherits

/-- Any other text is taken for the level exactly when it names one. -/
theorem level_createService (hservice : isTestEnvironment environment = false)
    (hinherits : ¬ environment.InheritsLevel) (hasks : settings.Asks configured) (context : Members) :
    LogLevel.ofName? (createService environment settings context).level = some (environment.levelOr configured) := by
  -- Without the inherited names the test for a level is right.
  have hcontains : LogLevel.inheritedNames.contains environment.logLevel = false :=
    (Bool.not_eq_true _).mp (mt List.contains_iff_mem.mp hinherits)
  have haccepts : LogLevel.accepts environment.logLevel = (LogLevel.ofName? environment.logLevel).isSome := by
    rw [LogLevel.accepts, hcontains, Bool.or_false]
  rw [createService, serviceSettings_of_not_test hservice, haccepts, Environment.levelOr]
  cases hnamed : LogLevel.ofName? environment.logLevel with
  | some level => exact hnamed
  | none =>
    have hlevel : (create settings context).level = configured.name := hasks.level
    exact (congrArg LogLevel.ofName? hlevel).trans configured.ofName?_name

/-- Of the loggers below that of a service each writes the entries from the level of the service upwards, if that level
is one. -/
theorem Below.emits_iff {context : Members} {logger : Logger}
    (hbelow : (createService environment settings context).Below logger)
    (hservice : isTestEnvironment environment = false) (hasks : settings.Asks configured) (call : LogCall) :
    logger.Emits call ↔
      ¬ environment.InheritsLevel ∧ (environment.levelOr configured).severity ≤ call.level.severity := by
  have hsink : logger.sink ≠ .silence := by
    rw [hbelow.sink_eq, sink_createService hservice]
    exact hasks.sink
  rw [emits_iff_isEnabled hsink]
  by_cases hinherits : environment.InheritsLevel
  · have hlevel : LogLevel.ofName? logger.level = none := by
      rw [hbelow.level_eq]
      exact level_createService_of_inheritsLevel hservice hinherits settings context
    rw [isEnabled_of_no_level hlevel]
    exact iff_of_false Bool.false_ne_true fun h ↦ h.1 hinherits
  · have hlevel : LogLevel.ofName? logger.level = some (environment.levelOr configured) := by
      rw [hbelow.level_eq]
      exact level_createService hservice hinherits hasks context
    rw [isEnabled_of_level hlevel, decide_eq_true_iff]
    exact (and_iff_right hinherits).symm

/-- Outside a test run every logger of a service and every logger below it hands an entry to the sink of the
settings or writes nothing.  One that writes an entry of some level writes the entries of all higher levels.  All of
them write every entry of the highest level exactly if the environment does not set a name for the level that every
object inherits.  If it does, they write nothing; otherwise they write the entries from the level upwards that the
environment names or else the settings ask for. -/
theorem service_writes_unless_level_inherited (hservice : isTestEnvironment environment = false)
    (hasks : settings.Asks configured) (context : Members) {logger : Logger}
    (hbelow : (createService environment settings context).Below logger) :
    logger.sink = settings.sink ∧
    (∀ call, logger.Emits call ∨ logger.written call = []) ∧
    (∀ call other : LogCall, logger.Emits call → call.level.severity ≤ other.level.severity → logger.Emits other) ∧
    ((∀ call : LogCall, call.level = .fatal → logger.Emits call) ↔ ¬ environment.InheritsLevel) ∧
    ∀ call, logger.Emits call ↔
      ¬ environment.InheritsLevel ∧ (environment.levelOr configured).severity ≤ call.level.severity := by
  have hsink : logger.sink = settings.sink := hbelow.sink_eq.trans (sink_createService hservice settings context)
  have htakes : logger.sink ≠ .silence := by
    rw [hsink]
    exact hasks.sink
  have hemits := hbelow.emits_iff hservice hasks
  refine ⟨hsink, emits_or_written_eq_nil htakes, fun call other hcall hhigher ↦ ?_,
    ⟨fun hall ↦ ?_, fun hnamed call hfatal ↦ ?_⟩, hemits⟩
  · obtain ⟨hnamed, hlower⟩ := (hemits call).mp hcall
    exact (hemits other).mpr ⟨hnamed, Nat.le_trans hlower hhigher⟩
  · have hfatal : logger.Emits ⟨0, .fatal, "", {}⟩ := hall _ rfl
    exact ((hemits _).mp hfatal).1
  · rw [hemits call, hfatal]
    exact ⟨hnamed, LogLevel.severity_le_fatal _⟩

/-- A text that names no level leaves the logger of a service and those below it at the level of the settings, but an
inherited name silences all of them. -/
theorem service_silent_on_inherited_level :
    let settings : LoggerSettings := { level := some "info", sink := .function }
    let below (root : Logger) := (root.child [("component", .text "topology")]).withDatanode (some (.text "dn1"))
    let call : LogCall := { now := 0, level := .fatal, message := "No placement left" }
    let named := createService [("LOG_LEVEL", "verbose")] settings []
    let inherited := createService [("LOG_LEVEL", "toString")] settings []
    settings.Asks .info ∧
      (isTestEnvironment [("LOG_LEVEL", "verbose")] = false ∧ named.Below (below named) ∧ (below named).Emits call) ∧
      isTestEnvironment [("LOG_LEVEL", "toString")] = false ∧ inherited.Below (below inherited) ∧
        (below inherited).written call = [] := by
  intro settings below call named inherited
  have hasks : settings.Asks .info := ⟨rfl, by decide⟩
  have hbelow (root : Logger) : root.Below (below root) := (Below.self.child _).withDatanode _
  refine ⟨hasks, ⟨by decide, hbelow named, ?_⟩, by decide, hbelow inherited, ?_⟩
  · obtain ⟨-, -, -, -, hemits⟩ := service_writes_unless_level_inherited (by decide) hasks [] (hbelow named)
    exact (hemits call).mpr (by decide)
  · obtain ⟨-, hnothing, -, -, hemits⟩ := service_writes_unless_level_inherited (by decide) hasks [] (hbelow inherited)
    exact (hnothing call).resolve_left fun h ↦ absurd ((hemits call).mp h) (by decide)

end Logger

end ClusterMembership
