import ClusterMembership.Proofs.Rollback

/-!
# Loads that fall behind

A load reads the rows that a table held when it began, one at a time, and registers each under the lock of its
datanode without writing it back.  Other operations go on meanwhile, so a row may be another one, or gone, by the time
it is registered.  `Overlap.Tracks` says what remains: a registered datanode is as its row says, and a removed one stays
away, until a load registers a datanode with details that are not its row, and a registered one is as its row says again
once the row is written.
-/

namespace ClusterMembership

/-! ## Requests of operations -/

theorem TableRequest.rowAfter_of_ne {request : TableRequest} {id other : String} (h : request.IsFor id)
    (hother : id ≠ other) (row : Option Field) : request.rowAfter other row = row := by
  cases request with
  | put written details =>
    obtain rfl : written = id := h
    exact if_neg hother
  | delete deleted =>
    obtain rfl : deleted = id := h
    exact if_neg hother
  | next iterator | close iterator => exact h.elim

theorem TableRequest.IsFor.unique {request : TableRequest} {id other : String} (h : request.IsFor id)
    (hother : request.IsFor other) : id = other := by
  cases request with
  | put _ _ | delete _ => exact Eq.trans (Eq.symm h) hother
  | next _ | close _ => exact h.elim

theorem MemoryTable.serve_isFor (table : MemoryTable) {request : TableRequest} {id : String} (h : request.IsFor id) :
    (table.serve request).2 = .ok none := by
  cases request with
  | put _ _ | delete _ => rfl
  | next _ | close _ => exact h.elim

/-- The row that an operation wants for its datanode, given how the datanode stands. -/
def Remainder.wanted (standing : Option Standing) : Remainder → Option Field
  | .removal _ => none
  | .registration _ | .stateChange _ _ => standing.map fun held ↦ some held.details.toValue

namespace World

variable {world : World}

/-- What an operation asks of the table in use is the row that it wants for its datanode. -/
theorem Starts.wants {operation : Operation} {after : Manager} {table : Nat} {request : TableRequest}
    {remainder : Remainder} (h : world.Starts operation after (.asking table request remainder))
    (hkeyed : world.manager.Keyed) :
    world.manager.table = some table ∧ request.IsFor operation.datanode ∧
      ∀ row, request.rowAfter operation.datanode row = remainder.wanted (after.standing operation.datanode) := by
  cases h with
  | @writes registration inPlace _ hplacing _ htable =>
    have hrenews := Manager.renews_of_placing hkeyed hplacing
    refine ⟨htable, rfl, fun row ↦ (if_pos rfl).trans ?_⟩
    rw [Manager.stored_placedBy hrenews]
    unfold Remainder.wanted
    simp only
    rw [show (Operation.register registration).datanode = registration.details.id from rfl,
      hrenews.standing, if_pos rfl, Option.map_some]
  | deletes _ htable => exact ⟨htable, rfl, fun row ↦ if_pos rfl⟩
  | rewrites _ htable _ _ hstanding =>
    refine ⟨htable, rfl, fun row ↦ (if_pos rfl).trans ?_⟩
    rw [hstanding]
    rfl

/-- A start that ends at once while there is a table leaves the membership alone, adopts a reported state, or
registers a stored datanode. -/
theorem Starts.ended_cases {operation : Operation} {after : Manager} {outcome : Outcome}
    (h : world.Starts operation after (.ended outcome)) (hkeyed : world.manager.Keyed) {table : Nat}
    (htable : world.manager.table = some table) :
    world.manager.Tended after ∨
      (world.Adopts operation operation.datanode ∧
        (world.manager.standing operation.datanode = none → after.standing operation.datanode = none)) ∨
      ∃ request inPlace, operation = .register request ∧ request.persist = false ∧
        world.manager.placing request = (inPlace, none) ∧ inPlace.Tended after := by
  cases h with
  | stays _ htended => exact .inl htended
  | places hplacing hunwritten hcompleted =>
    have hpersist := hunwritten.resolve_right (by simp [htable])
    exact .inr (.inr ⟨_, _, rfl, hpersist, hplacing, hcompleted⟩)
  | forgets hnone => simp [htable] at hnone
  | restates _ hunwritten hnoted hrestated =>
    refine .inr (.inl ⟨hunwritten.resolve_right (by simp [htable]), fun habsent ↦ ?_⟩)
    rw [hrestated.standing, Manager.standing_restate (hnoted.keyed hkeyed), if_pos rfl, hnoted.standing, habsent]
    rfl

end World

/-- When the table has carried out what an operation asked, its datanode is as the row that the operation wanted. -/
theorem Manager.Finishes.wanted_of_ok {manager after : Manager} {remainder : Remainder} {entry : Option TableEntry}
    (h : manager.Finishes remainder (.ok entry) after) (hkeyed : manager.Keyed) (hawaits : manager.Awaits remainder)
    {held : Standing} (hheld : after.standing remainder.datanode = some held) :
    remainder.wanted (manager.standing remainder.datanode) = some (some held.details.toValue) := by
  cases h with
  | @completes placed _ written hwritten =>
    obtain ⟨hregistry, hcompleted⟩ := tended_completed hwritten hkeyed hawaits.1
    have hsame : written.standing placed.request.details.id = manager.standing placed.request.details.id := by
      rw [standing, hregistry, standing]
    have hstanding : manager.standing placed.request.details.id = some held :=
      (hsame.symm.trans (hcompleted.standing _).symm).trans hheld
    exact congrArg (Option.map _) hstanding
  | @forgets id _ =>
    have hforgotten := manager.standing_forget id id
    rw [if_pos rfl] at hforgotten
    exact absurd (hforgotten.symm.trans hheld) (by simp)
  | @settles id reply _ =>
    have hstanding : manager.standing id = some held := (manager.standing_settleWrite id _ id).symm.trans hheld
    exact congrArg (Option.map _) hstanding

/-! ## What happens to the rows -/

namespace World

/-- A datanode registers, and the topology accepts it. -/
def Registers (world : World) : Operation → String → Prop
  | .register request, id => request.persist = true ∧ world.Places (.register request) id
  | _, _ => False

/-- A load registers a datanode with details that are not its row. -/
def RegistersStale (world : World) (number : Nat) : Operation → String → Prop
  | .register request, id => request.persist = false ∧ world.Places (.register request) id ∧
    world.row? number id ≠ some (some request.details.toValue)
  | _, _ => False

variable {world : World}

/-- Of a datanode that is not registered only a registration asks for anything. -/
theorem Starts.registers_of_absent {operation : Operation} {after : Manager} {table : Nat} {request : TableRequest}
    {remainder : Remainder} (h : world.Starts operation after (.asking table request remainder))
    (hkeyed : world.manager.Keyed) (habsent : world.manager.standing operation.datanode = none) :
    world.Registers operation operation.datanode := by
  cases h with
  | writes hplacing hpersist _ => exact ⟨hpersist, rfl, by rw [hplacing]⟩
  | @deletes id _ hregistered _ =>
    have hnone : world.manager.standing id = none := habsent
    rw [Manager.contains_eq_isSome_standing, hnone] at hregistered
    simp at hregistered
  | rewrites _ _ hnoted hrestated hstanding =>
    rw [hrestated.standing, Manager.standing_restate (hnoted.keyed hkeyed), if_pos rfl, hnoted.standing,
      habsent] at hstanding
    simp at hstanding

end World

namespace Overlap

def Registers (overlap : Overlap) (occurrence : Occurrence) (id : String) : Prop :=
  ∃ operation, overlap.part? occurrence = some (.start operation) ∧ overlap.world.Registers operation id

def RegistersStale (overlap : Overlap) (number : Nat) (occurrence : Occurrence) (id : String) : Prop :=
  ∃ operation, overlap.part? occurrence = some (.start operation) ∧
    overlap.world.RegistersStale number operation id

/-- A heartbeat of a datanode brings an operational state that the registry may take over. -/
def Adopts (overlap : Overlap) (occurrence : Occurrence) (id : String) : Prop :=
  ∃ operation, overlap.part? occurrence = some (.start operation) ∧ overlap.world.Adopts operation id

/-- The row of a datanode is written or deleted. -/
def Rewrites (overlap : Overlap) (number : Nat) (occurrence : Occurrence) (id : String) : Prop :=
  ∃ request, overlap.part? occurrence = some (.ask number request) ∧ request.IsFor id

def Removes (overlap : Overlap) (occurrence : Occurrence) (id : String) : Prop :=
  ∃ entry, overlap.part? occurrence = some (.finish (.ok entry) (.removal id))

end Overlap

namespace World

/-- A load registered a datanode with details that were not its row, or a heartbeat brought another operational state
to a registry that follows it, and the row was left alone since. -/
def IsStale (world : World) (number : Nat) (occurrences : List Occurrence) (id : String) : Prop :=
  Since (fun past occurrence ↦ (world.undergo past).RegistersStale number occurrence id ∨
      (world.undergo past).Adopts occurrence id)
    (fun past occurrence ↦ (world.undergo past).Rewrites number occurrence id) occurrences

/-- A datanode was removed, and since then it did not register and no load registered it with details that were not its
row. -/
def IsGone (world : World) (number : Nat) (occurrences : List Occurrence) (id : String) : Prop :=
  Since (fun past occurrence ↦ (world.undergo past).Removes occurrence id)
    (fun past occurrence ↦ (world.undergo past).Registers occurrence id ∨
      (world.undergo past).RegistersStale number occurrence id) occurrences

end World

/-- How the row of a datanode goes with its standing, by how far the operation on it has come. -/
def Phase.Matches (number : Nat) (id : String) (standing : Option Standing) (row : Option Field) (stale : Prop) :
    Phase → Prop
  | .idle => ∀ held, standing = some held → row = some (some held.details.toValue) ∨ stale
  | .asking table request remainder => table = number ∧ request.IsFor id ∧
    ∀ row, request.rowAfter id row = remainder.wanted standing
  | .answered answer remainder => (∃ entry, answer = .ok entry) ∧ row = remainder.wanted standing

/-- A manager of one table in memory that never fails, whose rows go with the registry but for stale ones; those that
are gone are in neither. -/
structure Overlap.Tracks (overlap : Overlap) (number : Nat) (stale gone : String → Prop) : Prop where
  table : overlap.world.manager.table = some number
  held : ∃ memory, overlap.world.Holds number memory []
  rows : ∀ id, (overlap.phase id).Matches number id (overlap.world.manager.standing id)
    (overlap.world.row? number id) (stale id)
  gone : ∀ {id}, gone id → overlap.phase id = .idle ∧ overlap.world.manager.standing id = none ∧
    overlap.world.row? number id = none

theorem Phase.Matches.mono {number : Nat} {id : String} {standing : Option Standing} {row : Option Field}
    {stale later : Prop} {phase : Phase} (h : phase.Matches number id standing row stale) (hmono : stale → later) :
    phase.Matches number id standing row later := by
  cases phase with
  | idle => exact fun held hheld ↦ (h held hheld).imp_right hmono
  | asking _ _ _ | answered _ _ => exact h

/-- A load that registers a datanode leaves it as its row says, or stale. -/
theorem World.row_of_stored {world : World} {number : Nat} {stale : Prop} {request : RegistrationRequest}
    {inPlace : Manager} (hrecords : ∀ {id standing}, world.manager.standing id = some standing → standing.Sound id)
    (hpersist : request.persist = false) (hplacing : world.manager.placing request = (inPlace, none))
    (hbefore : ∀ held, world.manager.standing request.details.id = some held →
      world.row? number request.details.id = some (some held.details.toValue) ∨ stale)
    {held : Standing} (hheld : inPlace.standing request.details.id = some held) :
    world.row? number request.details.id = some (some held.details.toValue) ∨
      world.RegistersStale number (.register request) request.details.id ∨ stale := by
  have hkeyed : world.manager.Keyed := Manager.keyed_of_standing fun hstanding ↦ (hrecords hstanding).identified
  have hrenewed := (Manager.renews_of_placing hkeyed hplacing).standing request.details.id
  rw [if_pos rfl, hheld, Option.some.injEq] at hrenewed
  by_cases hrow : world.row? number request.details.id = some (some request.details.toValue)
  · cases hprevious : world.manager.standing request.details.id with
    | none =>
      rw [hprevious] at hrenewed
      exact .inl (hrenewed ▸ hrow)
    | some previous =>
      rcases hbefore previous hprevious with hsame | hstale
      · -- The datanode registers with the details that it has.
        have hdetails : request.details = previous.details :=
          Details.toValue_inj.mp (Option.some.inj (Option.some.inj (hrow.symm.trans hsame)))
        rw [hprevious, hdetails, (hrecords hprevious).renewed_self] at hrenewed
        exact .inl (hrenewed ▸ hsame)
      · exact .inr (.inr hstale)
  · exact .inr (.inl ⟨hpersist, ⟨rfl, by rw [hplacing]⟩, hrow⟩)

section Start

variable {world : World} {number : Nat}
  (hrecords : ∀ {id standing}, world.manager.standing id = some standing → standing.Sound id)
  (htable : world.manager.table = some number) {operation : Operation}

include hrecords htable

/-- A start leaves a datanode as its row says, asks for the row, or leaves the datanode stale. -/
theorem World.matches_start {stale : Prop}
    (hbefore : ∀ held, world.manager.standing operation.datanode = some held →
      world.row? number operation.datanode = some (some held.details.toValue) ∨ stale) :
    (world.start operation).2.phase.Matches number operation.datanode
      ((world.start operation).1.manager.standing operation.datanode) (world.row? number operation.datanode)
      ((world.RegistersStale number operation operation.datanode ∨
        world.Adopts operation operation.datanode) ∨ stale) := by
  have hkeyed : world.manager.Keyed := Manager.keyed_of_standing fun hstanding ↦ (hrecords hstanding).identified
  have hstarts := World.starts hkeyed operation
  cases hprogress : (world.start operation).2 with
  | asking table request remainder =>
    rw [hprogress] at hstarts
    obtain ⟨hused, hfor, hwanted⟩ := hstarts.wants hkeyed
    exact ⟨Option.some.inj (hused.symm.trans htable), hfor, hwanted⟩
  | ended outcome =>
    rw [hprogress] at hstarts
    intro held hheld
    rcases hstarts.ended_cases hkeyed htable with
      htended | ⟨hadopts, -⟩ | ⟨request, inPlace, rfl, hpersist, hplacing, hcompleted⟩
    · rw [htended.standing] at hheld
      exact (hbefore held hheld).imp_right .inr
    · exact .inr (.inl (.inr hadopts))
    · rw [hcompleted.standing] at hheld
      exact (World.row_of_stored hrecords hpersist hplacing hbefore hheld).imp_right (Or.imp_left .inl)

/-- A start leaves a datanode away that has neither a record nor a row, unless it registers. -/
theorem World.away_start (habsent : world.manager.standing operation.datanode = none)
    (hrow : world.row? number operation.datanode = none)
    (hstays : ¬ (world.Registers operation operation.datanode ∨
      world.RegistersStale number operation operation.datanode)) :
    (world.start operation).2.phase = .idle ∧
      (world.start operation).1.manager.standing operation.datanode = none := by
  have hkeyed : world.manager.Keyed := Manager.keyed_of_standing fun hstanding ↦ (hrecords hstanding).identified
  have hstarts := World.starts hkeyed operation
  cases hprogress : (world.start operation).2 with
  | asking table request remainder =>
    rw [hprogress] at hstarts
    exact absurd (.inl (hstarts.registers_of_absent hkeyed habsent)) hstays
  | ended outcome =>
    rw [hprogress] at hstarts
    rcases hstarts.ended_cases hkeyed htable with
      htended | ⟨-, habsents⟩ | ⟨request, inPlace, rfl, hpersist, hplacing, -⟩
    · exact ⟨rfl, (htended.standing _).trans habsent⟩
    · exact ⟨rfl, habsents habsent⟩
    · have hnone : world.row? number request.details.id = none := hrow
      have hdiffers : world.row? number request.details.id ≠ some (some request.details.toValue) := by simp [hnone]
      exact absurd (.inr ⟨hpersist, ⟨rfl, by rw [hplacing]⟩, hdiffers⟩) hstays

end Start

namespace Overlap.Tracks

variable {before after : Overlap} {number : Nat} {stale gone : String → Prop}

/-- Nothing but the log and the iterators has changed, and every operation is where it was. -/
theorem passes (h : before.Tracks number stale gone) (hworld : before.world.RowsAlike number after.world)
    (hphase : ∀ id, after.phase id = before.phase id) : after.Tracks number stale gone := by
  obtain ⟨memory, hholds⟩ := h.held
  obtain ⟨read, rest, hheld, -, hrest⟩ := hworld.held hholds
  have hrow := hworld.row? hholds
  have hstanding := hworld.alike.standing
  refine ⟨(congrArg Settings.table hworld.alike.settings).trans h.table, ⟨read, hrest rfl ▸ hheld⟩,
    fun id ↦ ?_, fun {id} hgone ↦ ?_⟩
  · rw [hphase, hstanding, hrow]
    exact h.rows id
  · rw [hphase, hstanding, hrow]
    exact h.gone hgone

/-- After the start of an operation. -/
theorem starts (h : before.Tracks number stale gone)
    (hrecords : ∀ {id standing}, before.world.manager.standing id = some standing → standing.Sound id)
    {operation : Operation} (hidle : before.phase operation.datanode = .idle)
    (hworld : after.world = (before.world.start operation).1)
    (hphase : ∀ id, after.phase id =
      if operation.datanode = id then (before.world.start operation).2.phase else before.phase id) :
    after.Tracks number
      (fun id ↦ (before.world.RegistersStale number operation id ∨ before.world.Adopts operation id) ∨ stale id)
      fun id ↦ gone id ∧ ¬ (before.world.Registers operation id ∨
        before.world.RegistersStale number operation id) := by
  have hkeyed : before.world.manager.Keyed :=
    Manager.keyed_of_standing fun hstanding ↦ (hrecords hstanding).identified
  have hstarts := World.starts hkeyed operation
  have hrow (id : String) : (before.world.start operation).1.row? number id = before.world.row? number id := rfl
  obtain ⟨memory, hholds⟩ := h.held
  refine ⟨?_, ⟨memory, hworld ▸ hholds⟩, fun id ↦ ?_, fun {id} hgone ↦ ?_⟩
  · rw [hworld]
    exact (congrArg Settings.table hstarts.settings).trans h.table
  · rw [hphase, hworld, hrow]
    split
    · next hsame =>
      subst hsame
      have hbefore := h.rows operation.datanode
      rw [hidle] at hbefore
      exact World.matches_start hrecords h.table hbefore
    · next hother =>
      rw [hstarts.standing_of_ne hkeyed hother]
      exact (h.rows id).mono .inr
  · obtain ⟨hwas, hstays⟩ := hgone
    obtain ⟨hstill, habsent, hnone⟩ := h.gone hwas
    rw [hphase, hworld, hrow]
    split
    · next hsame =>
      subst hsame
      obtain ⟨hended, hafter⟩ := World.away_start hrecords h.table habsent hnone hstays
      exact ⟨hended, hafter, hnone⟩
    · next hother =>
      rw [hstarts.standing_of_ne hkeyed hother]
      exact ⟨hstill, habsent, hnone⟩

/-- After the table has taken up what an operation asks. -/
theorem asks (h : before.Tracks number stale gone) {table : Nat} {request : TableRequest} {id : String}
    {remainder : Remainder} (hbefore : before.phase id = .asking table request remainder)
    (hworld : after.world = (before.world.ask table request).1)
    (hphase : ∀ other, after.phase other =
      if id = other then .answered (before.world.ask table request).2 remainder else before.phase other) :
    table = number ∧ after.Tracks number (fun other ↦ stale other ∧ ¬ request.IsFor other) gone := by
  obtain ⟨rfl, hfor, hwanted⟩ : table = number ∧ request.IsFor id ∧
      ∀ row, request.rowAfter id row = remainder.wanted (before.world.manager.standing id) := by
    have hmatches := h.rows id
    rwa [hbefore] at hmatches
  obtain ⟨memory, hholds⟩ := h.held
  have halike := before.world.alike_ask table request
  obtain ⟨rest, read, hheld, hrest, ⟨hanswer, hrows⟩ | ⟨hfaults, -⟩⟩ := hholds.ask_rows (Prod.eta _).symm
  · refine ⟨rfl, ?_, ⟨read, ?_⟩, fun other ↦ ?_, fun {other} hgone ↦ ?_⟩
    · rw [hworld]
      exact (congrArg Settings.table halike.settings).trans h.table
    · rw [hworld, ← hrest rfl]
      exact hheld
    · rw [hphase, hworld, halike.standing, hrows]
      split
      · next hsame =>
        subst hsame
        exact ⟨⟨none, by rw [← hanswer, memory.serve_isFor hfor]⟩, hwanted _⟩
      · next hother =>
        rw [TableRequest.rowAfter_of_ne hfor hother]
        exact (h.rows other).mono fun hstale ↦ ⟨hstale, fun hothers ↦ hother (hfor.unique hothers)⟩
    · obtain ⟨hstill, habsent, hnone⟩ := h.gone hgone
      have hother : id ≠ other := by
        rintro rfl
        simp [hbefore] at hstill
      rw [hphase, hworld, if_neg hother, halike.standing, hrows, TableRequest.rowAfter_of_ne hfor hother]
      exact ⟨hstill, habsent, hnone⟩
  · exact absurd rfl hfaults

/-- After the end of an operation. -/
theorem ends (h : before.Tracks number stale gone) (hkeyed : before.world.manager.Keyed) {id : String}
    {answer : TableAnswer} {remainder : Remainder} (hdatanode : remainder.datanode = id)
    (hawaits : before.world.manager.Awaits remainder)
    (hbefore : before.phase id = .answered answer remainder)
    (hworld : after.world = (before.world.finish remainder answer).1)
    (hphase : ∀ other, after.phase other = if id = other then .idle else before.phase other) :
    after.Tracks number stale
      fun other ↦ (∃ entry, answer = .ok entry ∧ remainder = .removal other) ∨ gone other := by
  obtain ⟨⟨entry, rfl⟩, hwanted⟩ : (∃ entry, answer = .ok entry) ∧
      before.world.row? number id = remainder.wanted (before.world.manager.standing id) := by
    have hmatches := h.rows id
    rwa [hbefore] at hmatches
  subst hdatanode
  have hfinishes := before.world.finishes remainder (.ok entry)
  have hsettings := hfinishes.settings hkeyed hawaits
  have hrow (other : String) : (before.world.finish remainder (.ok entry)).1.row? number other =
      before.world.row? number other := rfl
  obtain ⟨memory, hholds⟩ := h.held
  refine ⟨?_, ⟨memory, hworld ▸ hholds⟩, fun other ↦ ?_, fun {other} hgone ↦ ?_⟩
  · rw [hworld]
    exact (congrArg Settings.table hsettings).trans h.table
  · rw [hphase, hworld, hrow]
    split
    · next hsame =>
      subst hsame
      intro held hheld
      exact .inl (hwanted.trans (hfinishes.wanted_of_ok hkeyed hawaits hheld))
    · next hother =>
      rw [hfinishes.standing_of_ne hkeyed hawaits hother]
      exact h.rows other
  · rw [hphase, hworld, hrow]
    rcases hgone with ⟨_, -, rfl⟩ | hwas
    · have hforgotten := before.world.manager.standing_forget other other
      rw [if_pos rfl] at hforgotten
      exact ⟨if_pos rfl, hforgotten, hwanted⟩
    · obtain ⟨hstill, habsent, hnone⟩ := h.gone hwas
      have hother : remainder.datanode ≠ other := by
        rintro rfl
        simp [hbefore] at hstill
      rw [if_neg hother, hfinishes.standing_of_ne hkeyed hawaits hother]
      exact ⟨hstill, habsent, hnone⟩

/-- After every step of a task. -/
theorem advances (h : before.Tracks number stale gone) {astray leftover : String → Prop}
    (horderly : before.Orderly astray leftover) {task : Nat} (hadvances : before.Advances task after) :
    after.Tracks number
      (fun id ↦ (before.RegistersStale number (.step task) id ∨ before.Adopts (.step task) id) ∨
        stale id ∧ ¬ before.Rewrites number (.step task) id)
      fun id ↦ before.Removes (.step task) id ∨
        gone id ∧ ¬ (before.Registers (.step task) id ∨ before.RegistersStale number (.step task) id) := by
  unfold Registers RegistersStale Adopts Rewrites Removes
  cases hadvances with
  | passes hpart hworld hphase => simpa [hpart] using h.passes (hworld number) hphase
  | starts hpart _ hidle hworld hphase =>
    simpa [hpart] using h.starts horderly.housed.records hidle hworld hphase
  | asks hpart hbefore hworld hphase =>
    obtain ⟨rfl, hasked⟩ := h.asks hbefore hworld hphase
    simpa [hpart] using hasked
  | @ends answer id remainder hpart hbefore hworld hphase =>
    have hfits := horderly.fits id
    rw [hbefore] at hfits
    have hended := h.ends horderly.housed.keyed hfits.1 hfits.2 hbefore hworld hphase
    simpa [hpart] using hended

end Overlap.Tracks

/-! ## Every interleaving -/

/-- An occurrence that keeps to a table in use that never fails. -/
def Occurrence.KeepsTo (number : Nat) : Occurrence → Prop
  | .switch table => table = some number
  | .spoil _ _ => False
  | _ => True

namespace World

theorem tables_affected (world : World) {number : Nat} {occurrence : Occurrence}
    (hkeeps : occurrence.KeepsTo number) : (world.affected occurrence).tables = world.tables := by
  cases occurrence with
  | queue id command =>
    unfold affected World.move World.call
    simp only
    split <;> rfl
  | spoil table faults => exact hkeeps.elim
  | _ => rfl

theorem settings_affected (world : World) {number : Nat} {occurrence : Occurrence}
    (hkeeps : occurrence.KeepsTo number) (htable : world.manager.table = some number) :
    (world.affected occurrence).manager.settings = world.manager.settings := by
  by_cases hswitch : ∃ table, occurrence = .switch table
  · obtain ⟨table, rfl⟩ := hswitch
    obtain rfl : table = some number := hkeeps
    have hswitched : (world.affected (.switch (some number))).manager.settings =
        { world.manager.settings with table := some number } := rfl
    rw [hswitched, ← htable]
    rfl
  · exact (world.tended_affected fun table hsame ↦ hswitch ⟨table, hsame⟩).settings

/-- What happens besides the steps of tasks has no part in the rows. -/
theorem tracks_affected {overlap : Overlap} {number : Nat} {stale gone : String → Prop}
    (h : overlap.Tracks number stale gone) {occurrence : Occurrence} (hkeeps : occurrence.KeepsTo number) :
    (overlap.withWorld (overlap.world.affected occurrence)).Tracks number stale gone := by
  have htables := overlap.world.tables_affected hkeeps
  have hsettings := overlap.world.settings_affected hkeeps h.table
  have hstanding := overlap.world.standing_affected occurrence
  have hrow (id : String) : (overlap.world.affected occurrence).row? number id = overlap.world.row? number id := by
    unfold row?
    rw [htables]
  obtain ⟨memory, hholds⟩ := h.held
  refine ⟨(congrArg Settings.table hsettings).trans h.table, ⟨memory, ?_⟩, fun id ↦ ?_, fun {id} hgone ↦ ?_⟩
  · unfold Holds
    exact (congrArg (fun tables ↦ tables[number]?) htables).trans hholds
  · have hrows := h.rows id
    rw [← hrow, ← hstanding] at hrows
    exact hrows
  · have haway := h.gone hgone
    rw [← hrow, ← hstanding] at haway
    exact haway

/-- The rows are kept track of through everything that happens. -/
theorem tracks_undergo (world : World) (number : Nat) (memory : MemoryTable)
    (hempty : world.manager.HasEmptyMemory) (htable : world.manager.table = some number)
    (hholds : world.Holds number memory [])
    (occurrences : List Occurrence) (hkeeps : ∀ occurrence ∈ occurrences, occurrence.KeepsTo number) :
    (world.undergo occurrences).Tracks number (world.IsStale number occurrences)
      (world.IsGone number occurrences) := by
  refine undergo_induction world (P := fun occurrences overlap ↦
    (∀ occurrence ∈ occurrences, occurrence.KeepsTo number) →
      overlap.Tracks number (world.IsStale number occurrences) (world.IsGone number occurrences))
    (fun _ ↦ ?_) (fun {past task after} hpast hadvances hkept ↦ ?_)
    (fun {past occurrence after} hpast hstep hworld hphase hkept ↦ ?_) occurrences hkeeps
  · refine ⟨htable, ⟨memory, hholds⟩, fun id ↦ ?_, fun hgone ↦ (not_since_nil hgone).elim⟩
    rw [Overlap.phase_of_idle]
    intro held hheld
    simp [Manager.standing, hempty.registry] at hheld
  · unfold IsStale IsGone
    simp only [since_append_iff]
    exact (hpast fun earlier hmem ↦ hkept earlier (List.mem_append_left _ hmem)).advances
      (world.orderly_undergo hempty past) hadvances
  · have htracks := hpast fun earlier hmem ↦ hkept earlier (List.mem_append_left _ hmem)
    have hlast := hkept occurrence (List.mem_append_right _ List.mem_cons_self)
    have hpart := (world.undergo past).part?_eq_none hstep
    unfold IsStale IsGone Overlap.RegistersStale Overlap.Registers Overlap.Adopts Overlap.Rewrites
      Overlap.Removes
    simp only [since_append_iff, hpart, reduceCtorEq, false_and, exists_false, not_false_eq_true, and_true,
      or_false, false_or]
    exact (tracks_affected htracks hlast).passes (hworld number) hphase

/-- Whatever is interleaved over one table in memory that never fails, a datanode that is gone is not registered, and
once all has ended every registered datanode is as its row says, unless it is stale. -/
theorem rows_tracked_amid (world : World) (number : Nat) (memory : MemoryTable)
    (hempty : world.manager.HasEmptyMemory) (htable : world.manager.table = some number)
    (hholds : world.Holds number memory [])
    (occurrences : List Occurrence) (hkeeps : ∀ occurrence ∈ occurrences, occurrence.KeepsTo number) :
    (∀ id, world.IsGone number occurrences id →
      (world.undergo occurrences).world.manager.registry.contains id = false) ∧
    ((world.undergo occurrences).IsAtRest → ∀ id record,
      (world.undergo occurrences).world.manager.registry.get? id = some record →
        (world.undergo occurrences).world.row? number id = some (some record.details.toValue) ∨
          world.IsStale number occurrences id) := by
  have htracks := world.tracks_undergo number memory hempty htable hholds occurrences hkeeps
  constructor
  · intro id hgone
    obtain ⟨-, habsent, -⟩ := htracks.gone hgone
    rw [Manager.contains_eq_isSome_standing, habsent, Option.isSome_none]
  · intro hrest id record hrecord
    have hmatches := htracks.rows id
    rw [(world.guarded_undergo occurrences).phase_of_isAtRest hrest] at hmatches
    exact hmatches _ (Manager.standing_eq_some hrecord)

end World

/-- A datanode registers; a load begins, the datanode is removed, and the load goes on. -/
def overtakenLoad : List Occurrence :=
  [.issue (.register (some (Details.sample "/rack1").toValue) none none none), .step 0, .step 0, .step 0, .step 0,
    .load, .issue (.remove (Details.sample "").id), .step 2, .step 2, .step 2, .step 2,
    .step 1, .step 1, .step 1, .step 1, .step 1, .step 1, .step 1, .step 1, .step 1]

namespace World

/-- A load brings back a datanode that was removed while it went on: the datanode is registered without a row. -/
theorem rows_tracked_amid_overtaken_load :
    let world := initial Configuration.default
    let overlap := world.undergo overtakenLoad
    let id := (Details.sample "").id
    world.manager.HasEmptyMemory ∧ world.manager.table = some 0 ∧ world.Holds 0 (.create []) [] ∧
      (∀ occurrence ∈ overtakenLoad, occurrence.KeepsTo 0) ∧ overlap.IsAtRest ∧
      overlap.world.manager.registry.contains id = true ∧ overlap.world.row? 0 id = none ∧
      world.IsStale 0 overtakenLoad id ∧ ¬ world.IsGone 0 overtakenLoad id := by
  intro world overlap id
  have hempty : world.manager.HasEmptyMemory := hasEmptyMemory_initial _
  have hkeeps : ∀ occurrence ∈ overtakenLoad, occurrence.KeepsTo 0 := by
    simp [overtakenLoad, Occurrence.KeepsTo]
  have hrest : overlap.IsAtRest := by decide +kernel
  have hregistered : overlap.world.manager.registry.contains id = true := by decide +kernel
  have hrow : overlap.world.row? 0 id = none := by decide +kernel
  obtain ⟨haway, hrows⟩ := rows_tracked_amid world 0 (.create []) hempty rfl rfl overtakenLoad hkeeps
  obtain ⟨record, hrecord⟩ := (Registry.contains_iff _ _).mp hregistered
  refine ⟨hempty, rfl, rfl, hkeeps, hrest, hregistered, hrow, ?_, fun hgone ↦ ?_⟩
  · exact (hrows hrest id record hrecord).resolve_left (by simp [overlap, hrow])
  · exact Bool.false_ne_true ((haway id hgone).symm.trans hregistered)

end World

end ClusterMembership
