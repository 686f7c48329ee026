import ClusterMembership.Proofs.ConfigurationChecks
import ClusterMembership.Proofs.Vitals
import ClusterMembership.Proofs.Waiting

/-!
# Health after a sweep

A sweep only ever makes the health of a datanode worse, so it is exact only if no datanode is in a worse health
than its silence means.  That is so as long as sweeps look at times that never decrease: a sweep leaves every
health as bad as the silence means, silences grow from then on, and nothing else makes a health worse
(`Manager.Spares`).  `sweep_classifies_after` says what a sweep then does.
-/

namespace ClusterMembership

/-! ## Intervals -/

namespace Configuration

theorem isReached_finite (threshold : Rat) (silence : Int) :
    isReached (.finite threshold) silence = true ↔ threshold ≤ silence :=
  Number.atMost_finite_iff threshold silence

theorem isReached_mono (threshold : Number) {silence longer : Int} (hle : silence ≤ longer)
    (hreached : isReached threshold silence = true) : isReached threshold longer = true := by
  cases threshold with
  | finite value =>
    rw [isReached_finite] at hreached ⊢
    exact Rat.le_trans hreached (Rat.intCast_le_intCast.mpr hle)
  | _ => exact hreached

/-- A configuration that passes the check has finite intervals, of which the stale one is the shorter. -/
theorem exists_intervals_of_validate {configuration : Configuration} (h : configuration.validate = .ok ()) :
    ∃ stale dead : Rat, configuration.staleInterval = .finite stale ∧
      configuration.deadInterval = .finite dead ∧ 0 < stale ∧ stale < dead := by
  rcases validate_cases configuration with ⟨-, hsound⟩ | ⟨_, hrefused, -⟩
  · obtain ⟨stale, hpositive, hstale⟩ := hsound.positive .stale
    obtain ⟨dead, -, hdead⟩ := hsound.positive .dead
    have hordered : (Number.finite stale).less (.finite dead) = true := hstale ▸ hdead ▸ hsound.ordered
    exact ⟨stale, dead, hstale, hdead, hpositive, (Number.less_finite_iff stale dead).mp hordered⟩
  · cases hrefused.symm.trans h

end Configuration

/-! ## One sweep -/

namespace NodeRecord

/-- The health that the silence of a datanode means at a time. -/
def dueHealth (configuration : Configuration) (now : Instant) (record : NodeRecord) : Health :=
  Manager.healthFor configuration (now - record.lastHeartbeat)

/-- Whether a datanode is due for a health that it is not in. -/
def turns (configuration : Configuration) (now : Instant) (health : Health) (record : NodeRecord) : Bool :=
  record.dueHealth configuration now = health ∧ record.status.health ≠ health

/-- What a sweep makes of a record. -/
def swept (configuration : Configuration) (now : Instant) (record : NodeRecord) : NodeRecord :=
  if record.dueHealth configuration now = .healthy then record
  else Registry.classified (record.dueHealth configuration now) now record

end NodeRecord

namespace Manager

/-- The datanodes among records that a sweep moves to a health. -/
def turning (configuration : Configuration) (now : Instant) (health : Health) (records : List NodeRecord) :
    List String :=
  (records.filter (NodeRecord.turns configuration now health)).map NodeRecord.id

section Sweeps

variable {state : Manager × SweepResult} {now : Instant} {record : NodeRecord}

/-- A datanode that dies: its health is noted and what waits for it is dropped. -/
theorem sweepOne_of_dead (hturns : record.turns state.1.configuration now .dead = true) :
    (sweepOne now state record).1.registry =
        state.1.registry.amend record.id (Registry.classified .dead now) ∧
      (sweepOne now state record).1.commands = (state.1.commands.purge record.id).1 ∧
      (sweepOne now state record).1.configuration = state.1.configuration ∧
      (sweepOne now state record).2 =
        { state.2 with checked := state.2.checked + 1, dead := state.2.dead ++ [record.id] } := by
  obtain ⟨hdue, hnot⟩ := of_decide_eq_true hturns
  have hmoves : ¬ (Health.dead = .healthy ∨ Health.dead = record.status.health) :=
    not_or.mpr ⟨Health.noConfusion, hnot.symm⟩
  unfold NodeRecord.dueHealth at hdue
  unfold sweepOne
  simp only [hdue, if_neg hmoves]
  exact ⟨rfl, rfl, rfl, rfl⟩

/-- A datanode that becomes stale: its health is noted. -/
theorem sweepOne_of_stale (hturns : record.turns state.1.configuration now .stale = true) :
    (sweepOne now state record).1.registry =
        state.1.registry.amend record.id (Registry.classified .stale now) ∧
      (sweepOne now state record).1.commands = state.1.commands ∧
      (sweepOne now state record).1.configuration = state.1.configuration ∧
      (sweepOne now state record).2 =
        { state.2 with checked := state.2.checked + 1, stale := state.2.stale ++ [record.id] } := by
  obtain ⟨hdue, hnot⟩ := of_decide_eq_true hturns
  have hmoves : ¬ (Health.stale = .healthy ∨ Health.stale = record.status.health) :=
    not_or.mpr ⟨Health.noConfusion, hnot.symm⟩
  unfold NodeRecord.dueHealth at hdue
  unfold sweepOne
  simp only [hdue, if_neg hmoves]
  exact ⟨rfl, rfl, rfl, rfl⟩

/-- A datanode that is moved to no health is due for a better one or for the one that it is in. -/
theorem dueHealth_of_kept {configuration : Configuration} (hstale : ¬ record.turns configuration now .stale = true)
    (hdead : ¬ record.turns configuration now .dead = true) :
    record.dueHealth configuration now = .healthy ∨ record.dueHealth configuration now = record.status.health := by
  unfold NodeRecord.turns at hstale hdead
  simp only [decide_eq_true_eq, not_and, ne_eq, Decidable.not_not] at hstale hdead
  cases hdue : record.dueHealth configuration now with
  | healthy => exact .inl rfl
  | stale => exact .inr (hstale hdue).symm
  | dead => exact .inr (hdead hdue).symm

/-- Every other datanode is left as it is. -/
theorem sweepOne_of_kept (hstale : ¬ record.turns state.1.configuration now .stale = true)
    (hdead : ¬ record.turns state.1.configuration now .dead = true) :
    sweepOne now state record = (state.1, { state.2 with checked := state.2.checked + 1 }) :=
  if_pos (dueHealth_of_kept hstale hdead)

theorem swept_of_kept {configuration : Configuration} (hstale : ¬ record.turns configuration now .stale = true)
    (hdead : ¬ record.turns configuration now .dead = true) : record.swept configuration now = record := by
  unfold NodeRecord.swept
  split
  · rfl
  · next hworse =>
    have hsame := (dueHealth_of_kept hstale hdead).resolve_left hworse
    exact if_pos hsame.symm

theorem turning_singleton (configuration : Configuration) (now : Instant) (health : Health) (record : NodeRecord) :
    turning configuration now health [record] =
      if record.turns configuration now health = true then [record.id] else [] := by
  unfold turning
  rw [List.filter_cons]
  split <;> rfl

theorem turning_cons (configuration : Configuration) (now : Instant) (health : Health) (record : NodeRecord)
    (rest : List NodeRecord) :
    turning configuration now health (record :: rest) =
      turning configuration now health [record] ++ turning configuration now health rest := by
  unfold turning
  rw [← List.map_append, ← List.filter_append]
  rfl

/-- Looking at a datanode counts it, and notes it when it is moved; what waits for it is dropped when it dies. -/
theorem look_sweepOne (state : Manager × SweepResult) (now : Instant) (record : NodeRecord) :
    (sweepOne now state record).1.configuration = state.1.configuration ∧
      (sweepOne now state record).1.commands =
        (if record.turns state.1.configuration now .dead = true then (state.1.commands.purge record.id).1
          else state.1.commands) ∧
      (sweepOne now state record).2 =
        { checked := state.2.checked + 1
          stale := state.2.stale ++ turning state.1.configuration now .stale [record]
          dead := state.2.dead ++ turning state.1.configuration now .dead [record] } := by
  rw [turning_singleton, turning_singleton]
  by_cases hdead : record.turns state.1.configuration now .dead = true
  · have hstale : ¬ record.turns state.1.configuration now .stale = true := by
      intro hstale
      cases (of_decide_eq_true hdead).1.symm.trans (of_decide_eq_true hstale).1
    obtain ⟨-, hcommands, hconfiguration, hresult⟩ := sweepOne_of_dead hdead
    rw [if_pos hdead, if_pos hdead, if_neg hstale, List.append_nil]
    exact ⟨hconfiguration, hcommands, hresult⟩
  · rw [if_neg hdead, if_neg hdead, List.append_nil]
    by_cases hstale : record.turns state.1.configuration now .stale = true
    · obtain ⟨-, hcommands, hconfiguration, hresult⟩ := sweepOne_of_stale hstale
      rw [if_pos hstale]
      exact ⟨hconfiguration, hcommands, hresult⟩
    · rw [if_neg hstale, List.append_nil, sweepOne_of_kept hstale hdead]
      exact ⟨rfl, rfl, rfl⟩

/-- A sweep counts every datanode and lists those that it moves. -/
theorem look_foldl (state : Manager × SweepResult) (now : Instant) (records : List NodeRecord) :
    (records.foldl (sweepOne now) state).1.configuration = state.1.configuration ∧
      (records.foldl (sweepOne now) state).2 =
        { checked := state.2.checked + records.length
          stale := state.2.stale ++ turning state.1.configuration now .stale records
          dead := state.2.dead ++ turning state.1.configuration now .dead records } := by
  induction records generalizing state with
  | nil =>
    unfold turning
    simp
  | cons record rest ih =>
    obtain ⟨hconfiguration, -, hresult⟩ := look_sweepOne state now record
    obtain ⟨hsame, hrest⟩ := ih (sweepOne now state record)
    rw [List.foldl_cons]
    refine ⟨hsame.trans hconfiguration, ?_⟩
    rw [hrest, hresult, hconfiguration, turning_cons state.1.configuration now .stale record rest,
      turning_cons state.1.configuration now .dead record rest]
    simp only [List.append_assoc, List.length_cons, Nat.add_assoc, Nat.add_comm 1]

theorem commands_sweepOne (state : Manager × SweepResult) (now : Instant) (record : NodeRecord) (id : String) :
    (sweepOne now state record).1.commands.peek id =
        (if id ∈ turning state.1.configuration now .dead [record] then [] else state.1.commands.peek id) ∧
      (sweepOne now state record).1.commands.reported? id =
        if id ∈ turning state.1.configuration now .dead [record] then none
        else state.1.commands.reported? id := by
  obtain ⟨-, hcommands, -⟩ := look_sweepOne state now record
  rw [hcommands, turning_singleton]
  by_cases hturns : record.turns state.1.configuration now .dead = true
  · rw [if_pos hturns, if_pos hturns, CommandQueue.peek_purge, CommandQueue.reported?_purge]
    simp only [List.mem_singleton, @eq_comm _ id record.id, and_self]
  · rw [if_neg hturns, if_neg hturns, if_neg List.not_mem_nil, if_neg List.not_mem_nil]
    exact ⟨rfl, rfl⟩

/-- A sweep drops what waits for the datanodes that die, and what they hold; it leaves the rest. -/
theorem commands_foldl (state : Manager × SweepResult) (now : Instant) (records : List NodeRecord) (id : String) :
    (records.foldl (sweepOne now) state).1.commands.peek id =
        (if id ∈ turning state.1.configuration now .dead records then [] else state.1.commands.peek id) ∧
      (records.foldl (sweepOne now) state).1.commands.reported? id =
        if id ∈ turning state.1.configuration now .dead records then none
        else state.1.commands.reported? id := by
  induction records generalizing state with
  | nil => exact ⟨rfl, rfl⟩
  | cons record rest ih =>
    obtain ⟨hconfiguration, -⟩ := look_sweepOne state now record
    obtain ⟨hpeek, hreported⟩ := commands_sweepOne state now record id
    obtain ⟨hpeekRest, hreportedRest⟩ := ih (sweepOne now state record)
    rw [List.foldl_cons, hpeekRest, hreportedRest, hpeek, hreported, hconfiguration,
      turning_cons _ _ _ record rest]
    simp only [List.mem_append]
    by_cases hrest : id ∈ turning state.1.configuration now .dead rest
    · simp only [if_pos hrest, if_pos (Or.inr hrest), and_self]
    · simp only [if_neg hrest, or_iff_left hrest, and_self]

end Sweeps

/-! ## Records after a sweep -/

section Records

variable {state : Manager × SweepResult} (hkeyed : state.1.Keyed) (now : Instant)

include hkeyed

/-- Looking at a datanode brings its record to the health that it is due for. -/
theorem get?_sweepOne_self {record : NodeRecord} (hrecord : state.1.registry.get? record.id = some record) :
    (sweepOne now state record).1.registry.get? record.id =
      some (record.swept state.1.configuration now) := by
  have hclassified (health : Health) := get?_classified hkeyed now health record.id record.id
  simp only [hrecord, Option.map_some] at hclassified
  by_cases hdead : record.turns state.1.configuration now .dead = true
  · rw [(sweepOne_of_dead hdead).1, hclassified, NodeRecord.swept, (of_decide_eq_true hdead).1]
    rfl
  · by_cases hstale : record.turns state.1.configuration now .stale = true
    · rw [(sweepOne_of_stale hstale).1, hclassified, NodeRecord.swept, (of_decide_eq_true hstale).1]
      rfl
    · rw [sweepOne_of_kept hstale hdead, hrecord, swept_of_kept hstale hdead]

/-- After a sweep over records that are stored, each is in the health that it is due for. -/
theorem get?_foldl_sweepOne {records : List NodeRecord} (hdistinct : (records.map NodeRecord.id).Nodup)
    (hpresent : ∀ record ∈ records, state.1.registry.get? record.id = some record) {record : NodeRecord}
    (hmem : record ∈ records) :
    (records.foldl (sweepOne now) state).1.registry.get? record.id =
      some (record.swept state.1.configuration now) := by
  induction records generalizing state with
  | nil => cases hmem
  | cons first rest ih =>
    rw [List.map_cons, List.nodup_cons] at hdistinct
    have hstill : (sweepOne now state first).1.Keyed := (tended_sweepOne state hkeyed now first).keyed hkeyed
    rw [List.foldl_cons]
    obtain rfl | hmem := List.mem_cons.mp hmem
    · rw [(foldl_sweepOne_of_not_mem hstill now hdistinct.1).2]
      exact get?_sweepOne_self hkeyed now (hpresent record List.mem_cons_self)
    · rw [← (look_sweepOne state now first).1]
      refine ih hstill hdistinct.2 (fun other hother ↦ ?_) hmem
      have hdifferent : first.id ≠ other.id := fun hsame ↦
        hdistinct.1 (hsame ▸ List.mem_map_of_mem hother)
      exact (sweepOne_of_ne hkeyed now hdifferent).2.trans (hpresent other (List.mem_cons_of_mem first hother))

end Records

/-! ## The whole registry -/

/-- A check of heartbeats is a sweep and a note. -/
theorem checkHeartbeats_eq (manager : Manager) (now : Instant) :
    ∃ trace, manager.checkHeartbeats now = ({ (manager.sweep now).1 with trace }, (manager.sweep now).2) := by
  unfold checkHeartbeats
  simp only
  split
  · exact ⟨(manager.sweep now).1.trace, rfl⟩
  · exact ⟨_, rfl⟩

variable {manager : Manager}

theorem result_checkHeartbeats (manager : Manager) (now : Instant) :
    (manager.checkHeartbeats now).2 =
      { checked := manager.registry.size
        stale := turning manager.configuration now .stale manager.registry.records.values
        dead := turning manager.configuration now .dead manager.registry.records.values } := by
  obtain ⟨trace, hsweep⟩ := manager.checkHeartbeats_eq now
  have hlook := (look_foldl (manager, {}) now manager.registry.records.values).2
  rw [hsweep]
  refine hlook.trans ?_
  rw [Nat.zero_add, List.nil_append, List.nil_append, OrderedMap.values, List.length_map]
  rfl

theorem configuration_checkHeartbeats (manager : Manager) (now : Instant) :
    (manager.checkHeartbeats now).1.configuration = manager.configuration := by
  obtain ⟨trace, hsweep⟩ := manager.checkHeartbeats_eq now
  rw [hsweep]
  exact (look_foldl (manager, {}) now manager.registry.records.values).1

theorem commands_checkHeartbeats (manager : Manager) (now : Instant) (id : String) :
    (manager.checkHeartbeats now).1.commands.peek id =
        (if id ∈ (manager.checkHeartbeats now).2.dead then [] else manager.commands.peek id) ∧
      (manager.checkHeartbeats now).1.commands.reported? id =
        if id ∈ (manager.checkHeartbeats now).2.dead then none else manager.commands.reported? id := by
  rw [result_checkHeartbeats]
  obtain ⟨trace, hsweep⟩ := manager.checkHeartbeats_eq now
  rw [hsweep]
  exact commands_foldl (manager, {}) now manager.registry.records.values id

theorem get?_checkHeartbeats (hkeyed : manager.Keyed) (now : Instant) (id : String) :
    (manager.checkHeartbeats now).1.registry.get? id =
      (manager.registry.get? id).map (NodeRecord.swept manager.configuration now) := by
  obtain ⟨trace, hsweep⟩ := manager.checkHeartbeats_eq now
  have hstart : ((manager, {}) : Manager × SweepResult).1.Keyed := hkeyed
  rw [hsweep]
  change (manager.registry.records.values.foldl (sweepOne now) (manager, {})).1.registry.get? id = _
  cases hrecord : manager.registry.get? id with
  | some record =>
    have hid := hkeyed hrecord
    have hpresent (other : NodeRecord) (hother : other ∈ manager.registry.records.values) :
        manager.registry.get? other.id = some other := by
      obtain ⟨key, hkey⟩ := (OrderedMap.mem_values_iff _ _).mp hother
      rw [hkeyed hkey]
      exact hkey
    have hmem : record ∈ manager.registry.records.values := (OrderedMap.mem_values_iff _ _).mpr ⟨id, hrecord⟩
    rw [← hid]
    refine get?_foldl_sweepOne hstart now ?_ hpresent hmem
    rw [map_id_values hkeyed]
    exact manager.registry.records.nodup_keys
  | none =>
    have habsent : id ∉ manager.registry.records.values.map NodeRecord.id := by
      rw [map_id_values hkeyed]
      intro hmem
      have hcontains := (OrderedMap.contains_iff_mem_keys _ _).mpr hmem
      rw [OrderedMap.contains, show manager.registry.records.get? id = none from hrecord] at hcontains
      cases hcontains
    exact (foldl_sweepOne_of_not_mem hstart now habsent).2.trans hrecord

/-! ## Exact health -/

/-- No datanode is in a worse health than its silence means at a time. -/
def Lenient (manager : Manager) (now : Instant) : Prop :=
  ∀ record ∈ manager.registry.records.values,
    record.status.health.rank ≤ (record.dueHealth manager.configuration now).rank

theorem rank_healthFor_mono (configuration : Configuration) {silence longer : Int} (hle : silence ≤ longer) :
    (healthFor configuration silence).rank ≤ (healthFor configuration longer).rank := by
  have hdead := Configuration.isReached_mono configuration.deadInterval hle
  have hstale := Configuration.isReached_mono configuration.staleInterval hle
  unfold healthFor
  by_cases hdeadLonger : Configuration.isReached configuration.deadInterval longer = true
  · rw [if_pos hdeadLonger]
    split
    · exact Nat.le_refl _
    · split <;> decide
  · rw [if_neg hdeadLonger, if_neg fun h ↦ hdeadLonger (hdead h)]
    split
    · next h => exact Nat.le_of_eq (congrArg Health.rank (if_pos (hstale h)).symm)
    · exact Nat.zero_le _

theorem Lenient.mono {now later : Instant} (hlenient : manager.Lenient now) (hle : now ≤ later) :
    manager.Lenient later := by
  intro record hrecord
  exact Nat.le_trans (hlenient record hrecord)
    (rank_healthFor_mono manager.configuration (Int.sub_le_sub_right hle record.lastHeartbeat))

theorem Spares.lenient {after : Manager} (hspares : manager.Spares after) {now : Instant}
    (hlenient : manager.Lenient now) : after.Lenient now := by
  intro record hrecord
  obtain hhealthy | ⟨former, hformer, hsame⟩ := hspares.vitals hrecord
  · rw [hhealthy]
    exact Nat.zero_le _
  · have hbound := hlenient former hformer
    obtain ⟨hhealth, htime⟩ := Prod.mk.inj hsame
    rw [hhealth, NodeRecord.dueHealth, hspares.configuration, htime]
    exact hbound

/-- A record that is in no worse health than it is due for is in exactly that health after a sweep. -/
theorem health_swept {configuration : Configuration} {now : Instant} {record : NodeRecord}
    (hle : record.status.health.rank ≤ (record.dueHealth configuration now).rank) :
    (record.swept configuration now).status.health = record.dueHealth configuration now := by
  unfold NodeRecord.swept
  split
  · next hhealthy =>
    rw [hhealthy] at hle ⊢
    cases hhealth : record.status.health with
    | healthy => rfl
    | _ => simp [hhealth, Health.rank] at hle
  · unfold Registry.classified
    split
    · next hsame => exact hsame
    · rfl

theorem lastHeartbeat_swept (configuration : Configuration) (now : Instant) (record : NodeRecord) :
    (record.swept configuration now).lastHeartbeat = record.lastHeartbeat := by
  unfold NodeRecord.swept Registry.classified
  split
  · rfl
  · split <;> rfl

/-- After a sweep every datanode is in exactly the health that its silence means. -/
def Exact (manager : Manager) (now : Instant) : Prop :=
  ∀ record ∈ manager.registry.records.values,
    record.status.health = record.dueHealth manager.configuration now

theorem exact_checkHeartbeats (hkeyed : manager.Keyed) {now : Instant} (hlenient : manager.Lenient now) :
    (manager.checkHeartbeats now).1.Exact now := by
  intro record hrecord
  obtain ⟨id, hid⟩ := (OrderedMap.mem_values_iff _ _).mp hrecord
  change (manager.checkHeartbeats now).1.registry.get? id = some record at hid
  rw [get?_checkHeartbeats hkeyed] at hid
  obtain ⟨former, hformer, rfl⟩ := Option.map_eq_some_iff.mp hid
  rw [health_swept (hlenient _ ((OrderedMap.mem_values_iff _ _).mpr ⟨id, hformer⟩)), configuration_checkHeartbeats,
    NodeRecord.dueHealth, NodeRecord.dueHealth, lastHeartbeat_swept]

theorem Exact.lenient {now : Instant} (hexact : manager.Exact now) : manager.Lenient now :=
  fun record hrecord ↦ Nat.le_of_eq (congrArg Health.rank (hexact record hrecord))

/-- A sweep of datanodes that are all in the health that they are due for changes nothing. -/
theorem checkHeartbeats_of_exact {now : Instant} (hexact : manager.Exact now) :
    manager.checkHeartbeats now = (manager, { checked := manager.registry.size }) := by
  have hnone {record : NodeRecord} (hrecord : record ∈ manager.registry.records.values) (health : Health) :
      ¬ record.turns manager.configuration now health = true := by
    intro hturns
    obtain ⟨hdue, hnot⟩ := of_decide_eq_true hturns
    exact hnot ((hexact record hrecord).trans hdue)
  have hkept (records : List NodeRecord) (hrecords : ∀ record ∈ records, record ∈ manager.registry.records.values)
      (result : SweepResult) : (records.foldl (sweepOne now) (manager, result)).1 = manager := by
    induction records generalizing result with
    | nil => rfl
    | cons record rest ih =>
      have hrecord := hrecords record List.mem_cons_self
      rw [List.foldl_cons, sweepOne_of_kept (hnone hrecord .stale) (hnone hrecord .dead)]
      exact ih (fun other hother ↦ hrecords other (List.mem_cons_of_mem record hother)) _
  have hturning (health : Health) : turning manager.configuration now health manager.registry.records.values = [] := by
    unfold turning
    rw [List.filter_eq_nil_iff.mpr fun record hrecord ↦ hnone hrecord health]
    rfl
  have hsweep : manager.sweep now = (manager, { checked := manager.registry.size }) := by
    have hresult := manager.result_checkHeartbeats now
    obtain ⟨trace, hsame⟩ := manager.checkHeartbeats_eq now
    rw [hturning, hturning, hsame] at hresult
    exact Prod.ext (hkept _ (fun record hrecord ↦ hrecord) {}) hresult
  unfold checkHeartbeats
  rw [hsweep]
  rfl

/-- The number of registered datanodes is the same after a sweep. -/
theorem size_checkHeartbeats (hkeyed : manager.Keyed) (now : Instant) :
    (manager.checkHeartbeats now).1.registry.size = manager.registry.size := by
  refine OrderedMap.size_eq_of_contains_iff fun id ↦ ?_
  change ((manager.checkHeartbeats now).1.registry.get? id).isSome = true ↔ (manager.registry.get? id).isSome = true
  rw [get?_checkHeartbeats hkeyed, Option.isSome_map]

/-! ## What a sweep does -/

/-- What a sweep at a time does, with the intervals in milliseconds. -/
structure Classifies (manager : Manager) (now : Instant) (stale dead : Rat) : Prop where
  /-- The same datanodes are registered, and none counts as heard of. -/
  heard : ∀ id, ((manager.checkHeartbeats now).1.registry.get? id).map NodeRecord.lastHeartbeat =
    (manager.registry.get? id).map NodeRecord.lastHeartbeat
  /-- A datanode is dead exactly when it has been silent for the dead interval. -/
  isDead : ∀ {id record}, (manager.checkHeartbeats now).1.registry.get? id = some record →
    (record.status.health = .dead ↔ dead ≤ ((now - record.lastHeartbeat : Int) : Rat))
  /-- A datanode is stale exactly when it has been silent for the stale interval but not the dead one. -/
  isStale : ∀ {id record}, (manager.checkHeartbeats now).1.registry.get? id = some record →
    (record.status.health = .stale ↔
      stale ≤ ((now - record.lastHeartbeat : Int) : Rat) ∧ ((now - record.lastHeartbeat : Int) : Rat) < dead)
  /-- A datanode is healthy exactly when it has not been silent for the stale interval. -/
  isHealthy : ∀ {id record}, (manager.checkHeartbeats now).1.registry.get? id = some record →
    (record.status.health = .healthy ↔ ((now - record.lastHeartbeat : Int) : Rat) < stale)
  /-- Every registered datanode is counted. -/
  checked : (manager.checkHeartbeats now).2.checked = manager.registry.size
  /-- The stale datanodes are listed that were not stale before, each once. -/
  stale : ∀ id, id ∈ (manager.checkHeartbeats now).2.stale ↔
    manager.health? id ≠ some .stale ∧ (manager.checkHeartbeats now).1.health? id = some .stale
  staleOnce : (manager.checkHeartbeats now).2.stale.Nodup
  /-- The dead datanodes are listed that were not dead before, each once. -/
  dead : ∀ id, id ∈ (manager.checkHeartbeats now).2.dead ↔
    manager.health? id ≠ some .dead ∧ (manager.checkHeartbeats now).1.health? id = some .dead
  deadOnce : (manager.checkHeartbeats now).2.dead.Nodup
  /-- Exactly the datanodes that died lose what waits for them. -/
  queued : ∀ id, (manager.checkHeartbeats now).1.commands.peek id =
    if id ∈ (manager.checkHeartbeats now).2.dead then [] else manager.commands.peek id
  /-- Exactly the datanodes that died lose the counts that they reported. -/
  held : ∀ id, (manager.checkHeartbeats now).1.commands.reported? id =
    if id ∈ (manager.checkHeartbeats now).2.dead then none else manager.commands.reported? id
  /-- Another sweep at the same time changes nothing. -/
  again : (manager.checkHeartbeats now).1.checkHeartbeats now =
    ((manager.checkHeartbeats now).1, { checked := manager.registry.size })

theorem health?_checkHeartbeats (hkeyed : manager.Keyed) {now : Instant} (hlenient : manager.Lenient now)
    {id : String} {record : NodeRecord} (hrecord : manager.registry.get? id = some record) :
    (manager.checkHeartbeats now).1.health? id = some (record.dueHealth manager.configuration now) := by
  rw [health?, get?_checkHeartbeats hkeyed, hrecord, Option.map_some, Option.map_some,
    health_swept (hlenient _ ((OrderedMap.mem_values_iff _ _).mpr ⟨id, hrecord⟩))]

/-- The datanodes that a sweep moves to a health are those that are in it afterwards and were not before. -/
theorem mem_turning_iff (hkeyed : manager.Keyed) {now : Instant} (hlenient : manager.Lenient now) {health : Health}
    {id : String} :
    id ∈ turning manager.configuration now health manager.registry.records.values ↔
      manager.health? id ≠ some health ∧ (manager.checkHeartbeats now).1.health? id = some health := by
  unfold turning
  simp only [List.mem_map, List.mem_filter]
  constructor
  · rintro ⟨record, ⟨hmem, hturns⟩, rfl⟩
    obtain ⟨hdue, hnot⟩ := of_decide_eq_true hturns
    obtain ⟨key, hkey⟩ := (OrderedMap.mem_values_iff _ _).mp hmem
    have hrecord : manager.registry.get? record.id = some record := by
      rw [hkeyed hkey]
      exact hkey
    rw [health?_checkHeartbeats hkeyed hlenient hrecord, health?, hrecord, hdue]
    exact ⟨fun hsame ↦ hnot (Option.some.inj hsame), rfl⟩
  · rintro ⟨hnot, hafter⟩
    cases hrecord : manager.registry.get? id with
    | none =>
      rw [health?, get?_checkHeartbeats hkeyed, hrecord] at hafter
      cases hafter
    | some record =>
      rw [health?_checkHeartbeats hkeyed hlenient hrecord] at hafter
      rw [health?, hrecord] at hnot
      have hturns : record.turns manager.configuration now health = true :=
        decide_eq_true ⟨Option.some.inj hafter, fun hsame ↦ hnot (congrArg some hsame)⟩
      exact ⟨record, ⟨(OrderedMap.mem_values_iff _ _).mpr ⟨id, hrecord⟩, hturns⟩, hkeyed hrecord⟩

theorem nodup_turning (hkeyed : manager.Keyed) (now : Instant) (health : Health) :
    (turning manager.configuration now health manager.registry.records.values).Nodup := by
  have hids : (manager.registry.records.values.map NodeRecord.id).Nodup := by
    rw [map_id_values hkeyed]
    exact manager.registry.records.nodup_keys
  exact (List.filter_sublist.map NodeRecord.id).nodup hids

section Intervals

variable {configuration : Configuration} {stale dead : Rat} (hstale : configuration.staleInterval = .finite stale)
  (hdead : configuration.deadInterval = .finite dead) (hless : stale < dead) (silence : Int)

include hdead

theorem healthFor_eq_dead_iff : healthFor configuration silence = .dead ↔ dead ≤ silence := by
  unfold healthFor
  rw [hdead, ← Configuration.isReached_finite]
  split
  · next h => exact iff_of_true rfl h
  · next h =>
    refine iff_of_false ?_ h
    split <;> exact Health.noConfusion

include hstale hless

theorem healthFor_eq_healthy_iff : healthFor configuration silence = .healthy ↔ silence < stale := by
  unfold healthFor
  rw [hdead, hstale]
  simp only [Configuration.isReached_finite]
  split
  · next h => exact iff_of_false Health.noConfusion (Rat.not_lt.mpr (Rat.le_trans (Rat.le_of_lt hless) h))
  · split
    · next h => exact iff_of_false Health.noConfusion (Rat.not_lt.mpr h)
    · next h => exact iff_of_true rfl (Rat.not_le.mp h)

theorem healthFor_eq_stale_iff :
    healthFor configuration silence = .stale ↔ stale ≤ silence ∧ silence < dead := by
  have hdeadIff := healthFor_eq_dead_iff hdead silence
  have hhealthyIff := healthFor_eq_healthy_iff hstale hdead hless silence
  constructor
  · intro hhealth
    rw [hhealth] at hdeadIff hhealthyIff
    exact ⟨Rat.not_lt.mp fun h ↦ Health.noConfusion (hhealthyIff.mpr h),
      Rat.not_le.mp fun h ↦ Health.noConfusion (hdeadIff.mpr h)⟩
  · rintro ⟨hreached, hbefore⟩
    cases hhealth : healthFor configuration silence with
    | healthy => exact absurd (hhealthyIff.mp hhealth) (Rat.not_lt.mpr hreached)
    | stale => rfl
    | dead => exact absurd (hdeadIff.mp hhealth) (Rat.not_le.mpr hbefore)

end Intervals

/-- A sweep over datanodes of which none is in too bad a health. -/
theorem classifies_of_lenient {stale dead : Rat} (hstale : manager.configuration.staleInterval = .finite stale)
    (hdead : manager.configuration.deadInterval = .finite dead) (hless : stale < dead) (hkeyed : manager.Keyed)
    {now : Instant} (hlenient : manager.Lenient now) : manager.Classifies now stale dead := by
  have hexact : (manager.checkHeartbeats now).1.Exact now := exact_checkHeartbeats hkeyed hlenient
  have hhealth {id : String} {record : NodeRecord}
      (h : (manager.checkHeartbeats now).1.registry.get? id = some record) :
      record.status.health = healthFor manager.configuration (now - record.lastHeartbeat) := by
    rw [← configuration_checkHeartbeats manager now]
    exact hexact _ ((OrderedMap.mem_values_iff _ _).mpr ⟨id, h⟩)
  have hresult := manager.result_checkHeartbeats now
  have hcommands := manager.commands_checkHeartbeats now
  have hagain := checkHeartbeats_of_exact hexact
  rw [size_checkHeartbeats hkeyed] at hagain
  exact
    { heard := fun id ↦ by
        rw [get?_checkHeartbeats hkeyed, Option.map_map]
        exact congrArg (fun read ↦ (manager.registry.get? id).map read)
          (funext fun record ↦ lastHeartbeat_swept manager.configuration now record)
      isDead := fun h ↦ by rw [hhealth h, healthFor_eq_dead_iff hdead]
      isStale := fun h ↦ by rw [hhealth h, healthFor_eq_stale_iff hstale hdead hless]
      isHealthy := fun h ↦ by rw [hhealth h, healthFor_eq_healthy_iff hstale hdead hless]
      checked := congrArg SweepResult.checked hresult
      stale := fun id ↦ by
        rw [hresult]
        exact mem_turning_iff hkeyed hlenient
      staleOnce := hresult ▸ nodup_turning hkeyed now .stale
      dead := fun id ↦ by
        rw [hresult]
        exact mem_turning_iff hkeyed hlenient
      deadOnce := hresult ▸ nodup_turning hkeyed now .dead
      queued := fun id ↦ (hcommands id).1
      held := fun id ↦ (hcommands id).2
      again := hagain }

end Manager

/-! ## Runs -/

namespace World

def sweepTime? (world : World) : Move → Option Instant
  | .call (.sweep moment) => some (moment.getD world.clock)
  | _ => none

def sweepTimes : World → List Move → List Instant
  | _, [] => []
  | world, move :: rest => (world.sweepTime? move).toList ++ sweepTimes (world.move move) rest

/-- A move other than a sweep spares all datanodes. -/
theorem spares_move {world : World} {move : Move} (hsweep : world.sweepTime? move = none) :
    world.manager.Spares (world.move move).manager := by
  cases move with
  | call call =>
    cases call with
    | operate request => exact world.spares_serve request
    | queue id command =>
      unfold World.move World.call
      simp only
      split
      · next queued hqueued =>
        unfold Manager.addCommand at hqueued
        split at hqueued
        · rw [← Except.ok.inj hqueued]
          exact .of_registry rfl rfl
        · cases hqueued
      · exact .refl world.manager
    | take id command =>
      have htaken : world.service.manager.Spares (world.service.onCommand id command).manager := by
        unfold Service.onCommand
        split
        · exact .of_registry rfl rfl
        · exact world.service.manager.spares_onCommand id command
      exact htaken
    | purge id => exact .of_registry rfl rfl
    | refreshUsage =>
      have hasked : world.service.manager.Spares world.service.refreshUsage.1.manager := by
        unfold Service.refreshUsage
        split <;> exact .of_registry rfl rfl
      exact hasked
    | sweep moment => cases hsweep
    | load => exact world.spares_load
    | switch table =>
      have hswitched : world.manager.Spares (world.switchTable table).manager := .of_registry rfl rfl
      exact hswitched.trans (world.switchTable table).spares_load
  | _ => exact .of_registry rfl rfl

theorem exists_sweep {world : World} {move : Move} {time : Instant} (h : world.sweepTime? move = some time) :
    ∃ moment, move = .call (.sweep moment) ∧ time = moment.getD world.clock := by
  unfold sweepTime? at h
  split at h
  · next moment => exact ⟨moment, rfl, (Option.some.inj h).symm⟩
  · cases h

theorem configuration_after (world : World) (moves : List Move) :
    (world.after moves).manager.configuration = world.manager.configuration := by
  unfold after
  induction moves generalizing world with
  | nil => rfl
  | cons move rest ih =>
    refine (ih (world.move move)).trans ?_
    cases hsweep : world.sweepTime? move with
    | none => exact (spares_move hsweep).configuration
    | some time =>
      obtain ⟨moment, rfl, -⟩ := exists_sweep hsweep
      exact Manager.configuration_checkHeartbeats world.manager _

/-- Sweeps of which none looks at an earlier time than one before it are lenient. -/
theorem lenient_after {world : World} (hsound : world.manager.Sound) {moves : List Move} {now : Instant}
    (htimes : (world.sweepTimes moves ++ [now]).Pairwise (· ≤ ·))
    (hlenient : ∀ time ∈ world.sweepTimes moves ++ [now], world.manager.Lenient time) :
    (world.after moves).manager.Lenient now := by
  induction moves generalizing world with
  | nil => exact hlenient now (List.mem_singleton_self now)
  | cons move rest ih =>
    have hmoved := sound_move hsound move
    rw [sweepTimes, List.append_assoc] at htimes hlenient
    refine ih hmoved (List.pairwise_append.mp htimes).2.1 fun time htime ↦ ?_
    have hbefore := hlenient time (List.mem_append_right _ htime)
    cases hsweep : world.sweepTime? move with
    | none => exact (spares_move hsweep).lenient hbefore
    | some swept =>
      rw [hsweep, Option.toList_some] at htimes hlenient
      have hle : swept ≤ time := (List.pairwise_append.mp htimes).2.2 swept List.mem_cons_self time htime
      obtain ⟨moment, rfl, rfl⟩ := exists_sweep hsweep
      have hexact := Manager.exact_checkHeartbeats hsound.keyed (hlenient _ List.mem_cons_self)
      exact hexact.lenient.mono hle

/-- After a run from empty memory in which no sweep looks at an earlier time than one before it, a sweep puts every
datanode in exactly the health that its silence means. -/
theorem sweep_classifies_after {world : World} (hempty : world.manager.HasEmptyMemory) {stale dead : Rat}
    (hstale : world.manager.configuration.staleInterval = .finite stale)
    (hdead : world.manager.configuration.deadInterval = .finite dead) (hless : stale < dead) {moves : List Move}
    {now : Instant} (htimes : (world.sweepTimes moves ++ [now]).Pairwise (· ≤ ·)) :
    (world.after moves).manager.Classifies now stale dead := by
  have hconfiguration := configuration_after world moves
  refine Manager.classifies_of_lenient ?_ ?_ hless (sound_after hempty.sound moves).keyed ?_
  · rw [hconfiguration, hstale]
  · rw [hconfiguration, hdead]
  · refine lenient_after hempty.sound htimes fun time _ record hrecord ↦ ?_
    rw [hempty.registry] at hrecord
    cases hrecord

/-- A datanode that a sweep has found stale is found dead by a later one. -/
theorem sweep_classifies_after_stale_sweep :
    let world := initial Configuration.default
    let moves := [Move.sample "/rack1", .tick 400000, .call (.sweep none)]
    world.manager.HasEmptyMemory ∧ (world.sweepTimes moves ++ [700000]).Pairwise (· ≤ ·) ∧
      (world.after moves).manager.Classifies 700000 300000 600000 ∧
      (world.after moves).manager.health? (Details.sample "").id = some .stale ∧
      ((world.after moves).manager.checkHeartbeats 700000).2 =
        { checked := 1, dead := [(Details.sample "").id] } := by
  have hempty := hasEmptyMemory_initial Configuration.default
  have htimes : ((initial Configuration.default).sweepTimes
      [Move.sample "/rack1", .tick 400000, .call (.sweep none)] ++ [700000]).Pairwise (· ≤ ·) := by
    decide +kernel
  exact ⟨hempty, htimes, sweep_classifies_after hempty (by decide +kernel) (by decide +kernel) (by decide) htimes,
    by decide +kernel, by decide +kernel⟩

end World

end ClusterMembership
