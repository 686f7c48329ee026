import ClusterMembership.Configuration
import ClusterMembership.Proofs.ExactArithmetic

/-!
# Configurations that are handed out

A configuration is made in two ways: by overrides of the defaults, or from environment variables that are read as such
overrides first.  Both end with one check, and the fields that its refusal names are exactly those that offend.  So what
is handed out is sound, keeps the default of whatever was not given, and a refusal is never without its reason.  The two
policies are no part of the check: variables are read with care, whereas overrides are taken as they come.
-/

namespace ClusterMembership

namespace Number

/-- A finite number above zero. -/
def IsPositive (number : Number) : Prop := ∃ value : Rat, 0 < value ∧ number = .finite value

/-- A finite number not below one. -/
def IsMultiplier (number : Number) : Prop := ∃ value : Rat, 1 ≤ value ∧ number = .finite value

theorem isPositive_iff (number : Number) : (number.isFinite && Number.less 0 number) = true ↔ number.IsPositive := by
  have hzero : (0 : Number) = .finite 0 := by decide
  rw [hzero]
  cases number <;> simp [isFinite, less, IsPositive]

theorem isMultiplier_iff (number : Number) : (number.isFinite && !number.less 1) = true ↔ number.IsMultiplier := by
  have hone : (1 : Number) = .finite 1 := by decide +kernel
  rw [hone]
  cases number <;> simp [isFinite, less, IsMultiplier]

end Number

theorem Interval.mem_all (interval : Interval) : interval ∈ all := by cases interval <;> decide

/-- A validation error that names exactly the fields that offend, of which there is one at least. -/
def Failure.Names (failure : Failure) (offends : String → Prop) : Prop :=
  ∃ error problems, failure = .service error ∧ error.name = "ValidationError" ∧ error.problems? = some problems ∧
    problems ≠ [] ∧ ∀ field, (∃ problem ∈ problems, problem.field = field) ↔ offends field

theorem ServiceError.names_fieldsWrong {problems : List FieldProblem} (hproblems : problems ≠ [])
    {offends : String → Prop} (h : ∀ field, (∃ problem ∈ problems, problem.field = field) ↔ offends field) :
    (Failure.service (.fieldsWrong problems)).Names offends :=
  ⟨.fieldsWrong problems, problems, rfl, rfl, rfl, hproblems, h⟩

namespace Configuration

variable {configuration : Configuration}

/-! ## What is asked of a configuration -/

/-- The identifier is not blank, the intervals are positive and finite, the stale one is the shorter, and the multiplier
is finite and not below one. -/
structure IsSound (configuration : Configuration) : Prop where
  named : ¬ ∀ c ∈ configuration.clusterId.toList, Text.isBlank c = true
  positive : ∀ interval : Interval, (interval.value configuration).IsPositive
  ordered : configuration.staleInterval.less configuration.deadInterval = true
  patient : configuration.observerMultiplier.IsMultiplier

/-- A field on which a configuration fails.  That the stale interval is not the shorter one is held against it. -/
inductive Offends (configuration : Configuration) : String → Prop
  | unnamed (h : ∀ c ∈ configuration.clusterId.toList, Text.isBlank c = true) : Offends configuration "clusterId"
  | interval (interval : Interval) (h : ¬ (interval.value configuration).IsPositive) :
      Offends configuration interval.field
  | order (h : configuration.deadInterval.atMost configuration.staleInterval = true) :
      Offends configuration "staleNodeIntervalMs"
  | multiplier (h : ¬ configuration.observerMultiplier.IsMultiplier) : Offends configuration "observerStaleMultiplier"

/-- Both policies are known ones. -/
structure HasKnownPolicies (configuration : Configuration) : Prop where
  pending : configuration.pendingCommands = "retain" ∨ configuration.pendingCommands = "discard"
  durability : configuration.durability = "best-effort" ∨ configuration.durability = "strict"

/-- Every setting is what was given for it, and its default when nothing was. -/
structure Takes (configuration : Configuration) (given : ConfigurationOverrides) : Prop where
  clusterId : configuration.clusterId = given.clusterId.getD "CID-local"
  heartbeatInterval : configuration.heartbeatInterval = given.heartbeatInterval.getD 30000
  staleInterval : configuration.staleInterval = given.staleInterval.getD 300000
  deadInterval : configuration.deadInterval = given.deadInterval.getD 600000
  checkInterval : configuration.checkInterval = given.checkInterval.getD 3000
  observerInterval : configuration.observerInterval = given.observerInterval.getD 60000
  observerMultiplier : configuration.observerMultiplier = given.observerMultiplier.getD 3
  pendingCommands : configuration.pendingCommands = given.pendingCommands.getD "retain"
  durability : configuration.durability = given.durability.getD "best-effort"

/-! ## The check -/

/-- What a check that finds one problem at most says of the fields with a problem. -/
theorem exists_mem_ite_iff {wrong : Prop} [Decidable wrong] (problem : FieldProblem) (field : String) :
    (∃ found ∈ (if wrong then some problem else none), found.field = field) ↔ wrong ∧ field = problem.field := by
  split
  · next hwrong => exact ⟨fun ⟨_, rfl, hfield⟩ ↦ ⟨hwrong, hfield.symm⟩, fun ⟨_, hfield⟩ ↦ ⟨problem, rfl, hfield.symm⟩⟩
  · next hright => exact ⟨nofun, fun ⟨hwrong, _⟩ ↦ absurd hwrong hright⟩

theorem exists_mem_clusterProblem_iff (field : String) :
    (∃ problem ∈ configuration.clusterProblem, problem.field = field) ↔
      (∀ c ∈ configuration.clusterId.toList, Text.isBlank c = true) ∧ field = "clusterId" := by
  unfold clusterProblem Text.isBlankText
  rw [exists_mem_ite_iff, List.all_eq_true]

theorem exists_mem_intervalProblem_iff (interval : Interval) (field : String) :
    (∃ problem ∈ configuration.intervalProblem interval, problem.field = field) ↔
      ¬ (interval.value configuration).IsPositive ∧ field = interval.field := by
  unfold intervalProblem
  simp only
  rw [← ite_not, exists_mem_ite_iff, Number.isPositive_iff]

theorem exists_mem_orderProblem_iff (field : String) :
    (∃ problem ∈ configuration.orderProblem, problem.field = field) ↔
      configuration.deadInterval.atMost configuration.staleInterval = true ∧ field = "staleNodeIntervalMs" := by
  unfold orderProblem
  rw [exists_mem_ite_iff]

theorem exists_mem_multiplierProblem_iff (field : String) :
    (∃ problem ∈ configuration.multiplierProblem, problem.field = field) ↔
      ¬ configuration.observerMultiplier.IsMultiplier ∧ field = "observerStaleMultiplier" := by
  unfold multiplierProblem
  simp only
  rw [← ite_not, exists_mem_ite_iff, Number.isMultiplier_iff]

/-- The problems of a configuration name exactly the fields that offend. -/
theorem exists_mem_problems_iff (field : String) :
    (∃ problem ∈ configuration.problems, problem.field = field) ↔ configuration.Offends field := by
  constructor
  · rintro ⟨problem, hproblem, rfl⟩
    simp only [problems, List.mem_append, Option.mem_toList, List.mem_filterMap] at hproblem
    rcases hproblem with ((hcluster | ⟨interval, -, hinterval⟩) | horder) | hmultiplier
    · obtain ⟨hblank, hfield⟩ := (exists_mem_clusterProblem_iff _).mp ⟨problem, hcluster, rfl⟩
      exact hfield ▸ .unnamed hblank
    · obtain ⟨hnot, hfield⟩ := (exists_mem_intervalProblem_iff interval _).mp ⟨problem, hinterval, rfl⟩
      exact hfield ▸ .interval interval hnot
    · obtain ⟨hle, hfield⟩ := (exists_mem_orderProblem_iff _).mp ⟨problem, horder, rfl⟩
      exact hfield ▸ .order hle
    · obtain ⟨hnot, hfield⟩ := (exists_mem_multiplierProblem_iff _).mp ⟨problem, hmultiplier, rfl⟩
      exact hfield ▸ .multiplier hnot
  · intro hoffends
    simp only [problems, List.mem_append, Option.mem_toList, List.mem_filterMap]
    cases hoffends with
    | unnamed hblank =>
      obtain ⟨problem, hproblem, hfield⟩ := (exists_mem_clusterProblem_iff _).mpr ⟨hblank, rfl⟩
      exact ⟨problem, .inl (.inl (.inl hproblem)), hfield⟩
    | interval interval hnot =>
      obtain ⟨problem, hproblem, hfield⟩ := (exists_mem_intervalProblem_iff interval _).mpr ⟨hnot, rfl⟩
      exact ⟨problem, .inl (.inl (.inr ⟨interval, interval.mem_all, hproblem⟩)), hfield⟩
    | order hle =>
      obtain ⟨problem, hproblem, hfield⟩ := (exists_mem_orderProblem_iff _).mpr ⟨hle, rfl⟩
      exact ⟨problem, .inl (.inr hproblem), hfield⟩
    | multiplier hnot =>
      obtain ⟨problem, hproblem, hfield⟩ := (exists_mem_multiplierProblem_iff _).mpr ⟨hnot, rfl⟩
      exact ⟨problem, .inr hproblem, hfield⟩

/-- A configuration is sound when no field fails: between finite intervals, one that is not the shorter is at least as
long as the other. -/
theorem isSound_iff_not_offends : configuration.IsSound ↔ ∀ field, ¬ configuration.Offends field := by
  have hordered (hpositive : ∀ interval : Interval, (interval.value configuration).IsPositive) :
      ¬ configuration.deadInterval.atMost configuration.staleInterval = true ↔
        configuration.staleInterval.less configuration.deadInterval = true := by
    obtain ⟨stale, -, hstale⟩ := hpositive .stale
    obtain ⟨dead, -, hdead⟩ := hpositive .dead
    rw [show configuration.staleInterval = .finite stale from hstale,
      show configuration.deadInterval = .finite dead from hdead]
    rw [Number.atMost_finite_iff, Number.less_finite_iff, not_le]
  constructor
  · rintro hsound field (hblank | ⟨interval, hnot⟩ | hle | hnot)
    · exact hsound.named hblank
    · exact hnot (hsound.positive interval)
    · exact (hordered hsound.positive).mpr hsound.ordered hle
    · exact hnot hsound.patient
  · intro h
    have hpositive (interval : Interval) : (interval.value configuration).IsPositive :=
      not_not.mp fun hnot ↦ h _ (.interval interval hnot)
    exact
      { named := fun hblank ↦ h _ (.unnamed hblank)
        positive := hpositive
        ordered := (hordered hpositive).mp fun hle ↦ h _ (.order hle)
        patient := not_not.mp fun hnot ↦ h _ (.multiplier hnot) }

/-- The check lets sound configurations pass, and its refusal names exactly the fields that offend. -/
theorem validate_cases (configuration : Configuration) :
    (configuration.validate = .ok () ∧ configuration.IsSound) ∨
      ∃ failure, configuration.validate = .error failure ∧ failure.Names configuration.Offends := by
  unfold validate
  split
  · next hproblems =>
    refine .inl ⟨rfl, isSound_iff_not_offends.mpr fun field hoffends ↦ ?_⟩
    obtain ⟨problem, hproblem, -⟩ := (exists_mem_problems_iff field).mpr hoffends
    exact absurd (hproblems ▸ hproblem) (List.not_mem_nil)
  · next hproblems => exact .inr ⟨_, rfl, ServiceError.names_fieldsWrong hproblems exists_mem_problems_iff⟩

/-! ## Overrides -/

theorem takes_withOverrides (overrides : ConfigurationOverrides) : (withOverrides overrides).Takes overrides :=
  ⟨rfl, rfl, rfl, rfl, rfl, rfl, rfl, rfl, rfl⟩

theorem create_of_problems_eq_nil {overrides : ConfigurationOverrides} (h : (withOverrides overrides).problems = []) :
    create overrides = .ok (withOverrides overrides) := by
  unfold create validate
  simp only [h]
  rfl

theorem create_cases (overrides : ConfigurationOverrides) :
    (create overrides = .ok (withOverrides overrides) ∧ (withOverrides overrides).IsSound) ∨
      ∃ failure, create overrides = .error failure ∧ failure.Names (withOverrides overrides).Offends := by
  unfold create
  simp only
  rcases validate_cases (withOverrides overrides) with ⟨hpasses, hsound⟩ | ⟨failure, hrefused, hnames⟩
  · exact .inl ⟨by rw [hpasses]; rfl, hsound⟩
  · exact .inr ⟨failure, by rw [hrefused]; rfl, hnames⟩

theorem isSound_and_takes_of_create {overrides : ConfigurationOverrides} (h : create overrides = .ok configuration) :
    configuration.IsSound ∧ configuration.Takes overrides := by
  rcases create_cases overrides with ⟨hcreated, hsound⟩ | ⟨_, hrefused, -⟩
  · obtain rfl := Except.ok.inj (hcreated.symm.trans h)
    exact ⟨hsound, takes_withOverrides overrides⟩
  · exact nomatch hrefused.symm.trans h

theorem names_of_create {overrides : ConfigurationOverrides} {failure : Failure}
    (h : create overrides = .error failure) : failure.Names (withOverrides overrides).Offends := by
  rcases create_cases overrides with ⟨hcreated, -⟩ | ⟨_, hrefused, hnames⟩
  · exact nomatch hcreated.symm.trans h
  · exact Except.error.inj (hrefused.symm.trans h) ▸ hnames

end Configuration

/-! ## Environments -/

namespace Environment

open ClusterMembership.Configuration

/-- The overrides that an environment spells; what it misspells is left out. -/
def overrides (environment : Environment) : ConfigurationOverrides where
  clusterId := environment.get? "CLUSTER_ID"
  heartbeatInterval := (environment.get? "HEARTBEAT_INTERVAL").bind Duration.read?
  staleInterval := (environment.get? "STALE_NODE_INTERVAL").bind Duration.read?
  deadInterval := (environment.get? "DEAD_NODE_INTERVAL").bind Duration.read?
  checkInterval := (environment.get? "HEARTBEAT_CHECK_INTERVAL").bind Duration.read?
  observerInterval := (environment.get? "OBSERVER_HEARTBEAT_INTERVAL").bind Duration.read?
  observerMultiplier := (environment.get? "OBSERVER_STALE_MULTIPLIER").bind readMultiplier?
  pendingCommands := (environment.get? "PENDING_COMMANDS_ON_REREGISTER").bind (readPolicy? pendingPolicies)
  durability := (environment.get? "REGISTRATION_DURABILITY").bind (readPolicy? durabilityPolicies)

/-- A variable is set to a text that cannot be read. -/
def IsUnreadable {α : Type} (environment : Environment) (name : String) (read? : String → Option α) : Prop :=
  ∃ raw, environment.get? name = some raw ∧ read? raw = none

/-- A field whose variable cannot be read. -/
inductive Misspells (environment : Environment) : String → Prop
  | interval (interval : Interval) (h : environment.IsUnreadable interval.variableName Duration.read?) :
      Misspells environment interval.field
  | multiplier (h : environment.IsUnreadable "OBSERVER_STALE_MULTIPLIER" readMultiplier?) :
      Misspells environment "observerStaleMultiplier"
  | pending (h : environment.IsUnreadable "PENDING_COMMANDS_ON_REREGISTER" (readPolicy? pendingPolicies)) :
      Misspells environment "pendingCommandsOnReregister"
  | durability (h : environment.IsUnreadable "REGISTRATION_DURABILITY" (readPolicy? durabilityPolicies)) :
      Misspells environment "registrationDurability"

end Environment

namespace Configuration

namespace Draft

variable {α : Type} (environment : Environment) (draft : Draft) (setting : Setting α)

def Faults (draft : Draft) (field : String) : Prop := ∃ problem ∈ draft.problems, problem.field = field

/-- The setting becomes what was read, and stays what it was when nothing was. -/
theorem configuration_readWith :
    (draft.readWith environment setting).configuration = setting.update draft.configuration
      (((environment.get? setting.variableName).bind setting.read?).getD (setting.value draft.configuration)) := by
  unfold readWith
  cases environment.get? setting.variableName with
  | none => exact (setting.update_value _).symm
  | some raw =>
    cases hread : setting.read? raw with
    | none => simp [hread, setting.update_value]
    | some value => simp [hread]

theorem faults_readWith (field : String) :
    (draft.readWith environment setting).Faults field ↔
      draft.Faults field ∨ environment.IsUnreadable setting.variableName setting.read? ∧ field = setting.field := by
  unfold readWith Faults Environment.IsUnreadable
  cases environment.get? setting.variableName with
  | none => simp
  | some raw =>
    cases hread : setting.read? raw with
    | none => simp [hread, Setting.problem, or_and_right, exists_or, eq_comm]
    | some value => simp [hread]

theorem readCluster_eq :
    draft.readCluster environment =
      ⟨{ draft.configuration with
          clusterId := (environment.get? "CLUSTER_ID").getD draft.configuration.clusterId }, draft.problems⟩ := by
  unfold readCluster
  cases environment.get? "CLUSTER_ID" <;> rfl

/-- The fields at fault after some intervals were read. -/
theorem faults_foldl_readWith (intervals : List Interval) (field : String) :
    (intervals.foldl (fun draft interval ↦ draft.readWith environment (.ofInterval interval)) draft).Faults field ↔
      draft.Faults field ∨ ∃ interval ∈ intervals,
        environment.IsUnreadable interval.variableName Duration.read? ∧ field = interval.field := by
  induction intervals generalizing draft with
  | nil => simp
  | cons interval rest ih =>
    rw [List.foldl_cons, ih, faults_readWith]
    simp only [Setting.ofInterval, List.mem_cons, or_and_right, exists_or, exists_eq_left, or_assoc]

end Draft

/-- What an environment is read as: the overrides that it spells, over the defaults. -/
theorem configuration_draft (environment : Environment) :
    (draft environment).configuration = withOverrides environment.overrides := by
  simp only [draft, Draft.configuration_readWith, Interval.all, List.foldl_cons, List.foldl_nil, Draft.readCluster_eq]
  rfl

/-- The problems met while reading name exactly the fields whose variables cannot be read. -/
theorem faults_draft_iff (environment : Environment) (field : String) :
    (draft environment).Faults field ↔ environment.Misspells field := by
  have hstart : ¬ (Draft.readCluster environment ⟨default, []⟩).Faults field := by
    rw [Draft.readCluster_eq]
    exact fun ⟨_, hproblem, _⟩ ↦ absurd hproblem List.not_mem_nil
  simp only [draft, Draft.faults_readWith, Draft.faults_foldl_readWith]
  constructor
  · rintro ((((hcluster | ⟨interval, -, hunreadable, rfl⟩) | ⟨hunreadable, rfl⟩) | ⟨hunreadable, rfl⟩) |
      ⟨hunreadable, rfl⟩)
    · exact absurd hcluster hstart
    · exact .interval interval hunreadable
    · exact .multiplier hunreadable
    · exact .pending hunreadable
    · exact .durability hunreadable
  · rintro (⟨interval, hunreadable⟩ | hunreadable | hunreadable | hunreadable)
    · exact .inl (.inl (.inl (.inr ⟨interval, interval.mem_all, hunreadable, rfl⟩)))
    · exact .inl (.inl (.inr ⟨hunreadable, rfl⟩))
    · exact .inl (.inr ⟨hunreadable, rfl⟩)
    · exact .inr ⟨hunreadable, rfl⟩

theorem load_of_problems_eq_nil {environment : Environment} (h : (draft environment).problems = []) :
    load environment = create environment.overrides := by
  unfold load create
  simp only [configuration_draft, h]

/-- An environment whose variables can all be read gives the configuration that its overrides create; otherwise the
refusal names exactly the fields whose variables cannot be read. -/
theorem load_cases (environment : Environment) :
    (load environment = create environment.overrides ∧ ∀ field, ¬ environment.Misspells field) ∨
      ∃ failure, load environment = .error failure ∧ failure.Names environment.Misspells := by
  by_cases hproblems : (draft environment).problems = []
  · refine .inl ⟨load_of_problems_eq_nil hproblems, fun field hmisspelt ↦ ?_⟩
    obtain ⟨problem, hproblem, -⟩ := (faults_draft_iff environment field).mpr hmisspelt
    exact absurd (hproblems ▸ hproblem) List.not_mem_nil
  · have hrefused : load environment = .error (.service (.fieldsWrong (draft environment).problems)) := by
      simp only [load]
    exact .inr ⟨_, hrefused, ServiceError.names_fieldsWrong hproblems (faults_draft_iff environment)⟩

end Configuration

/-! ## What is handed out -/

/-- A policy that is given is a known one. -/
structure ConfigurationOverrides.NamePolicies (overrides : ConfigurationOverrides) : Prop where
  pending : ∀ policy, overrides.pendingCommands = some policy → policy = "retain" ∨ policy = "discard"
  durability : ∀ policy, overrides.durability = some policy → policy = "best-effort" ∨ policy = "strict"

theorem Configuration.mem_of_readPolicy? {policies : List String} {raw? : Option String} {policy : String}
    (h : raw?.bind (readPolicy? policies) = some policy) : policy ∈ policies := by
  obtain ⟨raw, -, hread⟩ := Option.bind_eq_some_iff.mp h
  unfold readPolicy? at hread
  split at hread
  · next hknown =>
    obtain rfl := Option.some.inj hread
    exact List.contains_iff_mem.mp hknown
  · cases hread

/-- What an environment spells has known policies only. -/
theorem Environment.namePolicies_overrides (environment : Environment) : environment.overrides.NamePolicies where
  pending policy h := by
    simpa [Configuration.pendingPolicies] using Configuration.mem_of_readPolicy? h
  durability policy h := by
    simpa [Configuration.durabilityPolicies] using Configuration.mem_of_readPolicy? h

namespace Configuration

/-- The defaults are known policies, so those of a configuration are known when the given ones are. -/
theorem Takes.hasKnownPolicies {configuration : Configuration} {given : ConfigurationOverrides}
    (htakes : configuration.Takes given) (hnamed : given.NamePolicies) : configuration.HasKnownPolicies where
  pending := by
    rw [htakes.pendingCommands]
    cases hgiven : given.pendingCommands with
    | none => exact .inl rfl
    | some policy => exact hnamed.pending policy hgiven
  durability := by
    rw [htakes.durability]
    cases hgiven : given.durability with
    | none => exact .inl rfl
    | some policy => exact hnamed.durability policy hgiven

/-- A configuration that is handed out is sound and has what was given for it over the defaults.  Its policies are known
ones when the overrides give no others, which environment variables never do.  Otherwise the refusal is a validation
error that names exactly the fields that offend: those whose variables cannot be read, or, when all can, those that fail
the check. -/
theorem configuration_sound_or_refused (overrides : ConfigurationOverrides) (environment : Environment) :
    (∀ configuration, create overrides = .ok configuration →
      configuration.IsSound ∧ configuration.Takes overrides ∧
        (overrides.NamePolicies → configuration.HasKnownPolicies)) ∧
    (∀ failure, create overrides = .error failure → failure.Names (withOverrides overrides).Offends) ∧
    (∀ configuration, load environment = .ok configuration →
      configuration.IsSound ∧ configuration.Takes environment.overrides ∧ configuration.HasKnownPolicies) ∧
    ∀ failure, load environment = .error failure →
      failure.Names environment.Misspells ∨
        (∀ field, ¬ environment.Misspells field) ∧ failure.Names (withOverrides environment.overrides).Offends := by
  refine ⟨fun configuration h ↦ ?_, fun failure h ↦ names_of_create h, fun configuration h ↦ ?_, fun failure h ↦ ?_⟩
  · obtain ⟨hsound, htakes⟩ := isSound_and_takes_of_create h
    exact ⟨hsound, htakes, htakes.hasKnownPolicies⟩
  · rcases load_cases environment with ⟨hcreates, -⟩ | ⟨_, hrefused, -⟩
    · obtain ⟨hsound, htakes⟩ := isSound_and_takes_of_create (hcreates.symm.trans h)
      exact ⟨hsound, htakes, htakes.hasKnownPolicies environment.namePolicies_overrides⟩
    · exact nomatch hrefused.symm.trans h
  · rcases load_cases environment with ⟨hcreates, hspelled⟩ | ⟨_, hrefused, hnames⟩
    · exact .inr ⟨hspelled, names_of_create (hcreates.symm.trans h)⟩
    · exact .inl (Except.error.inj (hrefused.symm.trans h) ▸ hnames)

/-- Variables that set an interval and a policy are taken over the defaults; overrides with a stale interval as long as
the dead one are refused. -/
theorem configuration_sound_or_refused_of_stale_interval :
    (∃ configuration,
      load [("STALE_NODE_INTERVAL", "90s"), ("PENDING_COMMANDS_ON_REREGISTER", "discard")] = .ok configuration ∧
        configuration.IsSound ∧ configuration.HasKnownPolicies ∧
        configuration.Takes { staleInterval := some 90000, pendingCommands := some "discard" }) ∧
    ∃ failure, create { staleInterval := some 600000 } = .error failure ∧
      failure.Names (withOverrides { staleInterval := some 600000 }).Offends := by
  obtain ⟨-, hrefused, hloaded, -⟩ := configuration_sound_or_refused { staleInterval := some 600000 }
    [("STALE_NODE_INTERVAL", "90s"), ("PENDING_COMMANDS_ON_REREGISTER", "discard")]
  constructor
  · have hspelled : Environment.overrides
        [("STALE_NODE_INTERVAL", "90s"), ("PENDING_COMMANDS_ON_REREGISTER", "discard")] =
          { staleInterval := some 90000, pendingCommands := some "discard" } := by decide +kernel
    have hload : load [("STALE_NODE_INTERVAL", "90s"), ("PENDING_COMMANDS_ON_REREGISTER", "discard")] =
        .ok (withOverrides { staleInterval := some 90000, pendingCommands := some "discard" }) := by
      rw [load_of_problems_eq_nil (by decide +kernel), hspelled]
      exact create_of_problems_eq_nil (by decide +kernel)
    obtain ⟨hsound, htakes, hknown⟩ := hloaded _ hload
    exact ⟨_, hload, hsound, hknown, hspelled ▸ htakes⟩
  · cases hcreated : create { staleInterval := some 600000 } with
    | error failure => exact ⟨failure, rfl, hrefused failure hcreated⟩
    | ok configuration =>
      have hfails : (create { staleInterval := some 600000 }).isOk = false := by decide +kernel
      rw [hcreated] at hfails
      exact absurd hfails nofun

/-- An override is not held to the policies that there are. -/
theorem unknown_policy_kept :
    create { pendingCommands := some "forget" } = .ok (withOverrides { pendingCommands := some "forget" }) ∧
      ¬ (withOverrides { pendingCommands := some "forget" }).HasKnownPolicies :=
  ⟨create_of_problems_eq_nil (by decide +kernel), fun hknown ↦ absurd hknown.pending (by decide)⟩

end Configuration

end ClusterMembership
