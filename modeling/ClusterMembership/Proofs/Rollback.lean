import ClusterMembership.Proofs.Interleaving
import ClusterMembership.Proofs.Starting

/-!
# Registrations that are undone while others go on

A registration is placed before its row is written, and the placement shows to everyone else meanwhile.  When the
write is given up, the placement is undone in a memory that others have changed: the other datanodes may have moved
to another depth, so that the old location is refused, and commands may have come in for a datanode that is now taken
out again.  `Manager.Housed` is what holds at every moment of every interleaving.  It is exact about locations: a
datanode is not where its details say exactly since its placement was undone beside a datanode at another depth.
-/

namespace ClusterMembership

namespace Manager

/-! ## Memory between operations -/

/-- The registry and the topology hold the same datanodes, and exactly those that are astray at other locations than
their details say; commands wait for registered datanodes, or are left over. -/
structure Housed (manager : Manager) (astray leftover : String → Prop) : Prop where
  records : ∀ {id standing}, manager.standing id = some standing → standing.Sound id
  topology : manager.topology.Sound
  same : ∀ id, (manager.topology.location? id).isSome = (manager.standing id).isSome
  located : ∀ {id standing}, manager.standing id = some standing →
    (manager.topology.location? id = some standing.details.location ↔ ¬ astray id)
  queued : ∀ {id}, manager.commands.peek id ≠ [] → (manager.standing id).isSome = true ∨ leftover id

/-- A datanode that registered again is stranded when its placement is undone beside a datanode at another depth than
its location from before. -/
def Strands (manager : Manager) (placed : PlacedRegistration) (id : String) : Prop :=
  placed.request.details.id = id ∧ ∃ previous, placed.previous = some previous ∧
    ∃ other location, other ≠ id ∧ manager.topology.location? other = some location ∧
      Topology.depthOf location ≠ Topology.depthOf previous.details.location

/-- A datanode that registered for the first time is withdrawn when its placement is undone while commands wait for
it. -/
def Withdraws (manager : Manager) (placed : PlacedRegistration) (id : String) : Prop :=
  placed.request.details.id = id ∧ placed.previous = none ∧ manager.commands.peek id ≠ []

namespace Housed

variable {manager after : Manager} {astray leftover : String → Prop}

/-- In a sound manager nobody is astray and nothing is left over. -/
theorem of_sound (h : manager.Sound) : manager.Housed (fun _ ↦ False) fun _ ↦ False where
  records := h.records
  topology := h.topology
  same id := by rw [h.placed, Option.isSome_map]
  located := fun {id standing} hstanding ↦ by simp [h.placed, hstanding]
  queued := fun {id} hqueued ↦ .inl (manager.contains_eq_isSome_standing id ▸ h.queued hqueued)

theorem keyed (h : manager.Housed astray leftover) : manager.Keyed :=
  keyed_of_standing fun hstanding ↦ (h.records hstanding).identified

theorem congr (h : manager.Housed astray leftover) {astray' leftover' : String → Prop}
    (hastray : ∀ id, astray' id ↔ astray id) (hleftover : ∀ id, leftover id → leftover' id) :
    manager.Housed astray' leftover' where
  records := h.records
  topology := h.topology
  same := h.same
  located := fun {id standing} hstanding ↦ by rw [hastray, h.located hstanding]
  queued := fun hqueued ↦ (h.queued hqueued).imp_right (hleftover _)

theorem of_stores (h : manager.Housed astray leftover)
    (hstanding : ∀ id, after.standing id = manager.standing id)
    (hplaced : ∀ id, after.topology.location? id = manager.topology.location? id)
    (hqueued : ∀ {id}, after.commands.peek id ≠ [] →
      manager.commands.peek id ≠ [] ∨ manager.registry.contains id = true) : after.Housed astray leftover where
  records := fun hid ↦ h.records ((hstanding _).symm.trans hid)
  topology := h.topology.of_location?_eq hplaced
  same := fun id ↦ by rw [hplaced, hstanding, h.same]
  located := fun {id standing} hid ↦ by
    rw [hstanding] at hid
    rw [hplaced, h.located hid]
  queued := fun {id} hid ↦ by
    rw [hstanding]
    rcases hqueued hid with hwaited | hregistered
    · exact h.queued hwaited
    · exact .inl (manager.contains_eq_isSome_standing id ▸ hregistered)

theorem tended (h : manager.Housed astray leftover) (htended : manager.Tended after) :
    after.Housed astray leftover :=
  h.of_stores htended.standing htended.placed htended.queued

theorem settleWrite (h : manager.Housed astray leftover) (id : String) (answer : TableAnswer) :
    (manager.settleWrite id answer).1.Housed astray leftover := by
  refine h.of_stores (manager.standing_settleWrite id answer) (fun other ↦ ?_) fun {other} hother ↦ ?_
  all_goals obtain ⟨marks, trace, hsettled⟩ := manager.exists_settleWrite_eq id answer
  · rw [hsettled]
  · rw [hsettled] at hother
    exact .inl hother

theorem restate (h : manager.Housed astray leftover) (id : String) (state expiry : Field) (now : Instant) :
    (manager.restate id state expiry now).Housed astray leftover := by
  have hstanding := standing_restate h.keyed id state expiry now
  have hsame (other : String) :
      ((manager.restate id state expiry now).standing other).isSome = (manager.standing other).isSome := by
    rw [← contains_eq_isSome_standing, contains_restate h.keyed, contains_eq_isSome_standing]
  -- A restated datanode keeps its location.
  have hrestated {other : String} {standing : Standing}
      (hother : (manager.restate id state expiry now).standing other = some standing) :
      standing.Sound other ∧ ∃ previous, manager.standing other = some previous ∧
        previous.details.location = standing.details.location := by
    rw [hstanding] at hother
    split at hother
    · next heq =>
      obtain ⟨previous, hprevious, rfl⟩ := Option.map_eq_some_iff.mp hother
      exact ⟨heq ▸ (h.records hprevious).restated state expiry, previous, heq ▸ hprevious,
        (previous.location_restated state expiry).symm⟩
    · exact ⟨h.records hother, standing, hother, rfl⟩
  exact
    { records := fun hother ↦ (hrestated hother).1
      topology := h.topology
      same := fun other ↦ (h.same other).trans (hsame other).symm
      located := fun {other standing} hother ↦ by
        obtain ⟨-, previous, hprevious, hlocation⟩ := hrestated hother
        rw [← hlocation]
        exact h.located hprevious
      queued := fun {other} hother ↦ by
        rw [hsame]
        exact h.queued hother }

/-- A placed datanode is where its details say, and what waits is no longer left over. -/
theorem placing (h : manager.Housed astray leftover) {request : RegistrationRequest}
    (hkept : request.details.Kept) {inPlace : Manager}
    (hplacing : manager.placing request = (inPlace, none)) :
    inPlace.Housed (fun id ↦ astray id ∧ request.details.id ≠ id)
      fun id ↦ leftover id ∧ request.details.id ≠ id := by
  have hstanding := (renews_of_placing h.keyed hplacing).standing
  have hlocation (id : String) : inPlace.topology.location? id =
      if request.details.id = id then some request.details.location else manager.topology.location? id :=
    location?_place hkept hplacing id
  have hcommands : inPlace.commands = manager.commands := by
    have hrest := ({ manager with known := manager.known.record request.details } : Manager).sameRest_place
      request.details (request.layout.getD manager.layout.report) manager.clock
    exact (congrArg (fun placed ↦ placed.1.commands) hplacing).symm.trans hrest.commands
  refine ⟨fun {id standing} hid ↦ ?_, ?_, fun id ↦ ?_, fun {id standing} hid ↦ ?_, fun {id} hid ↦ ?_⟩
  · rw [hstanding] at hid
    split at hid
    · next hsame => exact hsame ▸ Option.some.inj hid ▸ Standing.sound_renewed _ hkept
    · exact h.records hid
  · have htopology : ({ manager with known := manager.known.record request.details } : Manager).topology.Sound :=
      h.topology
    have hplaced := topology_place htopology hkept (request.layout.getD manager.layout.report) manager.clock
    have hinPlace : (manager.placing request).1 = inPlace := congrArg Prod.fst hplacing
    rwa [← hinPlace]
  · rw [hlocation, hstanding]
    split
    · rfl
    · exact h.same id
  · rw [hstanding] at hid
    rw [hlocation]
    split at hid
    · next hsame =>
      rw [if_pos hsame, ← Option.some.inj hid, Standing.location_renewed]
      simp [hsame]
    · next hsame =>
      rw [if_neg hsame, h.located hid]
      simp [hsame]
  · rw [hstanding]
    rw [hcommands] at hid
    split
    · exact .inl rfl
    · next hsame => exact (h.queued hid).imp_right fun hleft ↦ ⟨hleft, hsame⟩

theorem forget (h : manager.Housed astray leftover) (id : String) :
    (manager.forget id).Housed astray leftover := by
  have hstanding := manager.standing_forget id
  have hlocation (other : String) : (manager.forget id).topology.location? other =
      if id = other then none else manager.topology.location? other :=
    Topology.location?_remove manager.topology id other
  refine ⟨fun {other standing} hother ↦ ?_, h.topology.remove id, fun other ↦ ?_,
    fun {other standing} hother ↦ ?_, fun {other} hother ↦ ?_⟩
  · rw [hstanding] at hother
    split at hother
    · simp at hother
    · exact h.records hother
  · rw [hlocation, hstanding]
    split
    · rfl
    · exact h.same other
  · rw [hstanding] at hother
    split at hother
    · simp at hother
    · next hsame =>
      rw [hlocation, if_neg hsame]
      exact h.located hother
  · have hpeek : (manager.forget id).commands.peek other =
        if id = other then [] else manager.commands.peek other :=
      CommandQueue.peek_purge manager.commands id other
    rw [hpeek] at hother
    rw [hstanding]
    split at hother
    · exact absurd rfl hother
    · next hsame =>
      rw [if_neg hsame]
      exact h.queued hother

/-! ## Undoing a placement -/

theorem strands_or_iff {placed : PlacedRegistration} {id : String} (hother : placed.request.details.id ≠ id) :
    (manager.Strands placed id ∨ astray id ∧ placed.request.details.id ≠ id) ↔ astray id := by
  simp [Strands, hother]

/-- A datanode that is new is taken out again; commands that wait for it are left over. -/
theorem undone_new (h : manager.Housed astray leftover) {placed : PlacedRegistration}
    (hprevious : placed.previous = none) :
    (manager.undoPlacement placed).Housed
      (fun id ↦ manager.Strands placed id ∨ astray id ∧ placed.request.details.id ≠ id)
      fun id ↦ manager.Withdraws placed id ∨ leftover id := by
  have hundone : manager.undoPlacement placed =
      { manager with
        known := manager.known.restore placed.request.details.id placed.previousDescriptor
        registry := manager.registry.erase placed.request.details.id
        topology := manager.topology.remove placed.request.details.id } := by
    simp only [undoPlacement, hprevious]
  have hstanding (id : String) : (manager.undoPlacement placed).standing id =
      if placed.request.details.id = id then none else manager.standing id := by
    rw [hundone]
    exact standing_erase manager placed.request.details.id id
  have hlocation (id : String) : (manager.undoPlacement placed).topology.location? id =
      if placed.request.details.id = id then none else manager.topology.location? id := by
    rw [hundone]
    exact Topology.location?_remove manager.topology placed.request.details.id id
  have hcommands : (manager.undoPlacement placed).commands = manager.commands := by rw [hundone]
  refine ⟨fun {id standing} hid ↦ ?_, ?_, fun id ↦ ?_, fun {id standing} hid ↦ ?_, fun {id} hid ↦ ?_⟩
  · rw [hstanding] at hid
    split at hid
    · simp at hid
    · exact h.records hid
  · rw [hundone]
    exact h.topology.remove _
  · rw [hlocation, hstanding]
    split
    · rfl
    · exact h.same id
  · rw [hstanding] at hid
    split at hid
    · simp at hid
    · next hother =>
      rw [hlocation, if_neg hother, strands_or_iff hother]
      exact h.located hid
  · rw [hcommands] at hid
    rw [hstanding]
    split
    · next hsame => exact .inr (.inl ⟨hsame, hprevious, hid⟩)
    · exact (h.queued hid).imp_right .inr

/-- A datanode that was registered before goes back to where it was, unless that strands it. -/
theorem undone_again (h : manager.Housed astray leftover) {placed : PlacedRegistration} {previous : NodeRecord}
    (hprevious : placed.previous = some previous)
    (hregistered : (manager.standing placed.request.details.id).isSome = true)
    (hsound : previous.standing.Sound placed.request.details.id) :
    (manager.undoPlacement placed).Housed
      (fun id ↦ manager.Strands placed id ∨ astray id ∧ placed.request.details.id ≠ id)
      fun id ↦ manager.Withdraws placed id ∨ leftover id := by
  have hid : previous.id = placed.request.details.id := hsound.identified
  let moved := (manager.topology.update placed.request.details.id previous.details.location).1
  obtain ⟨hstanding, htopology, hcommands⟩ :
      (∀ id, (manager.undoPlacement placed).standing id =
        if placed.request.details.id = id then some previous.standing else manager.standing id) ∧
      (manager.undoPlacement placed).topology = moved ∧
      (manager.undoPlacement placed).commands = manager.commands := by
    have hupserted (id : String) := hid ▸ standing_upsert manager previous id
    simp only [undoPlacement, hprevious]
    split <;> exact ⟨hupserted, rfl, rfl⟩
  have hkept {id : String} (hother : placed.request.details.id ≠ id) :
      moved.location? id = manager.topology.location? id :=
    manager.topology.location?_update_of_ne hother _
  have hback : moved.location? placed.request.details.id = some previous.details.location ↔
      ¬ manager.Strands placed placed.request.details.id := by
    refine (Topology.location?_update_eq_iff h.topology hsound.kept.isWellFormed_location).trans ?_
    constructor
    · rintro hlevel ⟨-, found, hfound, other, there, hother, hthere, hdepth⟩
      obtain rfl : previous = found := Option.some.inj (hprevious.symm.trans hfound)
      exact hdepth (hlevel hother hthere)
    · intro hstays other there hother hthere
      exact Decidable.byContradiction fun hdepth ↦
        hstays ⟨rfl, previous, hprevious, other, there, hother, hthere, hdepth⟩
  refine ⟨fun {id standing} hid ↦ ?_, ?_, fun id ↦ ?_, fun {id standing} hid ↦ ?_, fun {id} hid ↦ ?_⟩
  · rw [hstanding] at hid
    split at hid
    · next hsame => exact hsame ▸ Option.some.inj hid ▸ hsound
    · exact h.records hid
  · rw [htopology]
    exact h.topology.update (hsound.identified ▸ hsound.kept.segments_id_ne_nil) _
  · rw [htopology, hstanding]
    split
    · next hsame =>
      rw [← hsame]
      exact Topology.isSome_location?_update ((h.same _).trans hregistered) _
    · next hother =>
      rw [hkept hother]
      exact h.same id
  · rw [hstanding] at hid
    rw [htopology]
    split at hid
    · next hsame =>
      rw [← hsame, ← Option.some.inj hid]
      exact hback.trans (not_congr (by simp))
    · next hother =>
      rw [hkept hother, strands_or_iff hother]
      exact h.located hid
  · rw [hcommands] at hid
    rw [hstanding]
    split
    · exact .inl rfl
    · exact (h.queued hid).imp_right .inr

/-- Undoing a placement strands or withdraws its datanode at most. -/
theorem undone (h : manager.Housed astray leftover) {placed : PlacedRegistration}
    (hawaits : manager.Awaits (.registration placed)) :
    (manager.undoPlacement placed).Housed
      (fun id ↦ manager.Strands placed id ∨ astray id ∧ placed.request.details.id ≠ id)
      fun id ↦ manager.Withdraws placed id ∨ leftover id := by
  cases hprevious : placed.previous with
  | none => exact h.undone_new hprevious
  | some previous =>
    exact h.undone_again hprevious (manager.contains_eq_isSome_standing _ ▸ hawaits.1)
      (hawaits.2 previous hprevious)

end Housed

/-! ## Starting and ending -/

/-- A registration ends without its placement: its write has failed under strict durability. -/
inductive Undoes (manager : Manager) : TableAnswer → Remainder → PlacedRegistration → Prop
  | intro {cause : Failure} {placed : PlacedRegistration} (hstrict : manager.configuration.isStrict = true) :
    Undoes manager (.error cause) (.registration placed) placed

namespace Housed

variable {manager after : Manager} {astray leftover : String → Prop}

/-- A start puts a datanode in its place when it places it, and else leaves everything where it is. -/
theorem starts {world : World} (h : world.manager.Housed astray leftover) {operation : Operation}
    {progress : Progress Remainder} (hstarts : world.Starts operation after progress)
    (hadmitted : operation.Admitted) :
    after.Housed (fun id ↦ astray id ∧ ¬ world.Places operation id)
      fun id ↦ leftover id ∧ ¬ world.Places operation id := by
  have hunplaced {after : Manager} (hafter : after.Housed astray leftover)
      (hnone : ∀ id, ¬ world.Places operation id) :
      after.Housed (fun id ↦ astray id ∧ ¬ world.Places operation id)
        fun id ↦ leftover id ∧ ¬ world.Places operation id :=
    hafter.congr (fun id ↦ and_iff_left (hnone id)) fun id hleft ↦ ⟨hleft, hnone id⟩
  have hplaced {request : RegistrationRequest} {inPlace : Manager} (hkept : request.details.Kept)
      (hplacing : world.manager.placing request = (inPlace, none)) :
      inPlace.Housed (fun id ↦ astray id ∧ ¬ world.Places (.register request) id)
        fun id ↦ leftover id ∧ ¬ world.Places (.register request) id := by
    have hplaces (id : String) : world.Places (.register request) id ↔ request.details.id = id := by
      simp [World.Places, hplacing]
    simp only [hplaces]
    exact h.placing hkept hplacing
  cases hstarts with
  | stays hnone htended => exact hunplaced (h.tended htended) hnone
  | places hplacing _ hcompleted => exact (hplaced hadmitted hplacing).tended hcompleted
  | writes hplacing _ _ => exact hplaced hadmitted hplacing
  | forgets _ => exact hunplaced (h.forget _) fun _ hplaces ↦ hplaces
  | deletes _ _ => exact hunplaced h fun _ hplaces ↦ hplaces
  | restates hnone _ hnoted hrestated | rewrites hnone _ hnoted hrestated _ =>
    exact hunplaced (((h.tended hnoted).restate _ _ _ _).tended hrestated) hnone

/-- An end strands or withdraws a datanode when it undoes its placement, and else leaves everything where it is. -/
theorem finishes (h : manager.Housed astray leftover) {answer : TableAnswer} {remainder : Remainder}
    (hfinishes : manager.Finishes remainder answer after) (hawaits : manager.Awaits remainder) :
    after.Housed
      (fun id ↦ (∃ placed, manager.Undoes answer remainder placed ∧ manager.Strands placed id) ∨
        astray id ∧ ¬ ∃ placed, manager.Undoes answer remainder placed ∧ placed.request.details.id = id)
      fun id ↦ (∃ placed, manager.Undoes answer remainder placed ∧ manager.Withdraws placed id) ∨ leftover id := by
  have hsettled {after : Manager} (hafter : after.Housed astray leftover)
      (hnone : ∀ placed, ¬ manager.Undoes answer remainder placed) :
      after.Housed
        (fun id ↦ (∃ placed, manager.Undoes answer remainder placed ∧ manager.Strands placed id) ∨
          astray id ∧ ¬ ∃ placed, manager.Undoes answer remainder placed ∧ placed.request.details.id = id)
        fun id ↦ (∃ placed, manager.Undoes answer remainder placed ∧ manager.Withdraws placed id) ∨ leftover id :=
    hafter.congr (fun id ↦ by simp [hnone]) fun id hleft ↦ .inr hleft
  cases hfinishes with
  | @completes placed answer written hwritten =>
    obtain ⟨-, hcompleted⟩ := tended_completed hwritten h.keyed hawaits.1
    have hhoused := h.settleWrite placed.request.details.id answer
    rw [hwritten] at hhoused
    refine hsettled (hhoused.tended hcompleted) ?_
    rintro _ ⟨hstrict⟩
    obtain ⟨note, failure, herror⟩ := settleWrite_error_of_strict hstrict placed.request.details.id ‹Failure›
    simp [herror] at hwritten
  | @undoes placed cause failed hstrict hfailed =>
    have hundone := (h.tended hfailed.tended).undone (hawaits.of_standing (hfailed.standing _))
    have hundoes (other : PlacedRegistration) :
        manager.Undoes (.error cause) (.registration placed) other ↔ placed = other :=
      ⟨fun ⟨_⟩ ↦ rfl, fun hsame ↦ hsame ▸ .intro hstrict⟩
    refine hundone.congr (fun id ↦ ?_) fun id hleft ↦ ?_
    · simp only [hundoes, exists_eq_left', Strands, hfailed.topology]
    · simp only [hundoes, exists_eq_left', Withdraws, ← hfailed.commands]
      exact hleft
  | forgets => exact hsettled (h.forget _) (by rintro _ ⟨⟩)
  | keeps halike => exact hsettled (h.tended halike.tended) (by rintro _ ⟨⟩)
  | settles => exact hsettled (h.settleWrite _ _) (by rintro _ ⟨⟩)

end Housed

end Manager

/-! ## What happens to the placements -/

namespace Overlap

/-- The registration of a datanode starts, and the topology accepts it. -/
def Places (overlap : Overlap) (occurrence : Occurrence) (id : String) : Prop :=
  ∃ operation, overlap.part? occurrence = some (.start operation) ∧ overlap.world.Places operation id

/-- A registration ends without its placement. -/
def Undoes (overlap : Overlap) (occurrence : Occurrence) (placed : PlacedRegistration) : Prop :=
  ∃ answer remainder, overlap.part? occurrence = some (.finish answer remainder) ∧
    overlap.world.manager.Undoes answer remainder placed

/-- A datanode is not put back to where it was before its registration: another datanode lies at another depth. -/
def Strands (overlap : Overlap) (occurrence : Occurrence) (id : String) : Prop :=
  ∃ placed, overlap.Undoes occurrence placed ∧ overlap.world.manager.Strands placed id

/-- A datanode is taken out again while commands wait for it. -/
def Withdraws (overlap : Overlap) (occurrence : Occurrence) (id : String) : Prop :=
  ∃ placed, overlap.Undoes occurrence placed ∧ overlap.world.manager.Withdraws placed id

/-- A datanode is placed, or its placement is undone. -/
def Repositions (overlap : Overlap) (occurrence : Occurrence) (id : String) : Prop :=
  overlap.Places occurrence id ∨ ∃ placed, overlap.Undoes occurrence placed ∧ placed.request.details.id = id

end Overlap

namespace World

/-- A datanode was stranded, and its position was left alone since. -/
def IsAstray (world : World) (occurrences : List Occurrence) (id : String) : Prop :=
  Since (fun past occurrence ↦ (world.undergo past).Strands occurrence id)
    (fun past occurrence ↦ (world.undergo past).Repositions occurrence id) occurrences

/-- A datanode was withdrawn while commands waited for it, and was not placed since. -/
def IsLeftOver (world : World) (occurrences : List Occurrence) (id : String) : Prop :=
  Since (fun past occurrence ↦ (world.undergo past).Withdraws occurrence id)
    (fun past occurrence ↦ (world.undergo past).Places occurrence id) occurrences

end World

/-- What an operation that waits keeps goes with the memory. -/
def Phase.Fits (manager : Manager) (id : String) : Phase → Prop
  | .idle => True
  | .asking _ _ remainder | .answered _ remainder => remainder.datanode = id ∧ manager.Awaits remainder

theorem Phase.Fits.of_standing {manager after : Manager} {id : String} {phase : Phase}
    (h : phase.Fits manager id) (hstanding : after.standing id = manager.standing id) : phase.Fits after id := by
  cases phase with
  | idle => trivial
  | asking table request remainder =>
    obtain ⟨rfl, hawaits⟩ := h
    exact ⟨rfl, hawaits.of_standing hstanding⟩
  | answered answer remainder =>
    obtain ⟨rfl, hawaits⟩ := h
    exact ⟨rfl, hawaits.of_standing hstanding⟩

namespace Overlap

/-- A memory in which the operations under way find what they keep. -/
structure Orderly (overlap : Overlap) (astray leftover : String → Prop) : Prop where
  housed : overlap.world.manager.Housed astray leftover
  fits : ∀ id, (overlap.phase id).Fits overlap.world.manager id

namespace Orderly

variable {before after : Overlap} {astray leftover : String → Prop}

theorem tended (h : before.Orderly astray leftover) (hhoused : after.world.manager.Housed astray leftover)
    (hstanding : ∀ id, after.world.manager.standing id = before.world.manager.standing id)
    (hphase : ∀ id, after.phase id = before.phase id) : after.Orderly astray leftover where
  housed := hhoused
  fits id := by
    rw [hphase]
    exact (h.fits id).of_standing (hstanding id)

/-- After the start of an operation. -/
theorem starts (h : before.Orderly astray leftover) {operation : Operation} (hadmitted : operation.Admitted)
    (hworld : after.world = (before.world.start operation).1)
    (hphase : ∀ id, after.phase id =
      if operation.datanode = id then (before.world.start operation).2.phase else before.phase id) :
    after.Orderly (fun id ↦ astray id ∧ ¬ before.world.Places operation id)
      fun id ↦ leftover id ∧ ¬ before.world.Places operation id := by
  have hstarts := World.starts h.housed.keyed operation
  refine ⟨hworld ▸ h.housed.starts hstarts hadmitted, fun id ↦ ?_⟩
  rw [hphase, hworld]
  split
  · next hsame =>
    cases hprogress : (before.world.start operation).2 with
    | ended outcome => trivial
    | asking table request remainder =>
      rw [hprogress] at hstarts
      obtain ⟨hdatanode, hawaits⟩ := hstarts.awaits h.housed.records
      exact ⟨hdatanode.trans hsame, hawaits⟩
  · next hother => exact (h.fits id).of_standing (hstarts.standing_of_ne h.housed.keyed hother)

/-- After the end of an operation. -/
theorem ends (h : before.Orderly astray leftover) {id : String} {answer : TableAnswer} {remainder : Remainder}
    (hbefore : before.phase id = .answered answer remainder)
    (hworld : after.world = (before.world.finish remainder answer).1)
    (hphase : ∀ other, after.phase other = if id = other then .idle else before.phase other) :
    after.Orderly
      (fun id ↦ (∃ placed, before.world.manager.Undoes answer remainder placed ∧
          before.world.manager.Strands placed id) ∨
        astray id ∧ ¬ ∃ placed, before.world.manager.Undoes answer remainder placed ∧
          placed.request.details.id = id)
      fun id ↦ (∃ placed, before.world.manager.Undoes answer remainder placed ∧
        before.world.manager.Withdraws placed id) ∨ leftover id := by
  have hfinishes := before.world.finishes remainder answer
  obtain ⟨rfl, hawaits⟩ : remainder.datanode = id ∧ before.world.manager.Awaits remainder := by
    have hfits := h.fits id
    rwa [hbefore] at hfits
  refine ⟨hworld ▸ h.housed.finishes hfinishes hawaits, fun other ↦ ?_⟩
  rw [hphase, hworld]
  split
  · trivial
  · next hother => exact (h.fits other).of_standing (hfinishes.standing_of_ne h.housed.keyed hawaits hother)

/-- Every step of a task keeps order; what it strands, withdraws and places is taken note of. -/
theorem advances (h : before.Orderly astray leftover) {number : Nat} (hadvances : before.Advances number after) :
    after.Orderly
      (fun id ↦ before.Strands (.step number) id ∨ astray id ∧ ¬ before.Repositions (.step number) id)
      fun id ↦ before.Withdraws (.step number) id ∨ leftover id ∧ ¬ before.Places (.step number) id := by
  unfold Strands Withdraws Repositions Undoes Places
  cases hadvances with
  | passes hpart hworld hphase =>
    have halike := (hworld 0).alike
    simpa [hpart] using h.tended (h.housed.tended halike.tended) halike.standing hphase
  | starts hpart hadmitted _ hworld hphase => simpa [hpart] using h.starts hadmitted hworld hphase
  | @asks table request id remainder hpart hbefore hworld hphase =>
    have halike := before.world.alike_ask table request
    have hfits := h.fits id
    rw [hbefore] at hfits
    simp only [hpart, Option.some.injEq, reduceCtorEq, false_and, exists_false, not_false_eq_true,
      and_true, or_false, false_or]
    refine ⟨hworld ▸ h.housed.tended halike.tended, fun other ↦ ?_⟩
    rw [hphase, hworld]
    split
    · next hsame =>
      subst hsame
      exact ⟨hfits.1, hfits.2.of_standing (halike.standing _)⟩
    · exact (h.fits other).of_standing (halike.standing other)
  | ends hpart hbefore hworld hphase => simpa [hpart] using h.ends hbefore hworld hphase

end Orderly

end Overlap

/-! ## Every interleaving -/

namespace World

variable {world : World}

theorem housed_affected {astray leftover : String → Prop} (h : world.manager.Housed astray leftover)
    (occurrence : Occurrence) : (world.affected occurrence).manager.Housed astray leftover := by
  by_cases hswitch : ∃ table, occurrence = .switch table
  · obtain ⟨table, rfl⟩ := hswitch
    exact h.of_stores (fun _ ↦ rfl) (fun _ ↦ rfl) .inl
  · exact h.tended (world.tended_affected fun table hsame ↦ hswitch ⟨table, hsame⟩)

/-- Order is kept through everything that happens. -/
theorem orderly_undergo (world : World) (hempty : world.manager.HasEmptyMemory) (occurrences : List Occurrence) :
    (world.undergo occurrences).Orderly (world.IsAstray occurrences) (world.IsLeftOver occurrences) := by
  have hhoused : world.manager.Housed (world.IsAstray []) (world.IsLeftOver []) :=
    (Manager.Housed.of_sound hempty.sound).congr (fun id ↦ iff_false_intro not_since_nil) fun id hleft ↦ hleft.elim
  refine undergo_induction world (P := fun occurrences overlap ↦
    overlap.Orderly (world.IsAstray occurrences) (world.IsLeftOver occurrences)) ?_ ?_ ?_ occurrences
  · exact ⟨hhoused, fun id ↦ by rw [Overlap.phase_of_idle]; trivial⟩
  · intro past number after hpast hadvances
    unfold IsAstray IsLeftOver
    simp only [since_append_iff]
    exact hpast.advances hadvances
  · intro past occurrence after hpast hstep hworld hphase
    have halike := (hworld 0).alike
    have hpart := (world.undergo past).part?_eq_none hstep
    unfold IsAstray IsLeftOver Overlap.Strands Overlap.Withdraws Overlap.Repositions Overlap.Undoes Overlap.Places
    simp only [since_append_iff, hpart, reduceCtorEq, false_and, exists_false, not_false_eq_true, and_true,
      or_false, false_or]
    exact hpast.tended ((housed_affected hpast.housed occurrence).tended halike.tended)
      (fun id ↦ (halike.standing id).trans (standing_affected _ occurrence id)) hphase

/-- Whatever is interleaved, at every moment the registry and the topology hold the same datanodes; a registered
datanode is at the location of its details unless it is astray; commands wait for registered datanodes, unless they
are left over. -/
theorem stores_agree_amid (world : World) (hempty : world.manager.HasEmptyMemory) (occurrences : List Occurrence) :
    let manager := (world.undergo occurrences).world.manager
    (∀ id, manager.topology.contains id = manager.registry.contains id) ∧
      (∀ id record, manager.registry.get? id = some record →
        ((manager.topology.location? id).map (fun location ↦ some (Value.text location)) =
          some record.details.networkLocation ↔ ¬ world.IsAstray occurrences id)) ∧
      ∀ id, manager.commands.peek id ≠ [] →
        manager.registry.contains id = true ∨ world.IsLeftOver occurrences id := by
  intro manager
  have hhoused := (orderly_undergo world hempty occurrences).housed
  refine ⟨fun id ↦ ?_, fun id record hrecord ↦ ?_, fun id hqueued ↦ ?_⟩
  · rw [manager.contains_eq_isSome_standing]
    exact hhoused.same id
  · have hstanding := Manager.standing_eq_some hrecord
    have hplace : record.details.networkLocation = some (.text record.details.location) :=
      (hhoused.records hstanding).kept.networkLocation_eq
    rw [← hhoused.located hstanding, hplace]
    cases manager.topology.location? id <;> simp [NodeRecord.standing]
  · rw [manager.contains_eq_isSome_standing]
    exact hhoused.queued hqueued

/-- A primary under strict durability over an empty table in memory. -/
def initialStrict : World := initial { Configuration.default with durability := "strict" }

end World

def Details.neighbour (location : String) : Details :=
  ⟨(Details.sample location).members.set "uuid" (.text "0c7f1d3a-52a4-4d6e-8b1f-9e5a6c2d7b80")⟩

/-- A datanode moves to another depth and a new one registers beside it; a command comes in for the new one, and then
the writes of both fail, that of the move first. -/
def lostRegistrations : List Occurrence :=
  let register (details : Details) : Occurrence := .issue (.register (some details.toValue) none none none)
  [register (.sample "/rack1"), .step 0, .step 0, .step 0, .step 0,
    register (.sample "/row1/rack1"), .step 1, register (.neighbour "/row1/rack2"), .step 2,
    .queue (Details.neighbour "").id (.issue .refreshUsage (.object []) 0),
    .spoil 0 [⟨.put, .error "disk full", 2, 0⟩],
    .step 1, .step 1, .step 1, .step 2, .step 2, .step 2]

namespace World

/-- At the end of the run the record of the datanode that was to move names the old location, and the topology holds
the new one. -/
theorem exists_stranded_record :
    let manager := (initialStrict.undergo lostRegistrations).world.manager
    ∃ record, manager.registry.get? (Details.sample "").id = some record ∧
      (manager.topology.location? (Details.sample "").id).map (fun location ↦ some (Value.text location)) ≠
        some record.details.networkLocation := by
  intro manager
  have hrecorded : (manager.registry.get? (Details.sample "").id).map (fun record ↦ record.details.networkLocation) =
      some (some (.text "/rack1")) := by decide +kernel
  have hlocation : manager.topology.location? (Details.sample "").id = some "/row1/rack1" := by decide +kernel
  obtain ⟨record, hrecord, hsame⟩ := Option.map_eq_some_iff.mp hrecorded
  refine ⟨record, hrecord, ?_⟩
  rw [hsame, hlocation]
  simp

/-- Two registrations whose writes are lost: the move strands its datanode, and the new datanode leaves a command
over. -/
theorem stores_agree_amid_lost_registrations :
    initialStrict.manager.HasEmptyMemory ∧
      initialStrict.IsAstray lostRegistrations (Details.sample "").id ∧
      initialStrict.IsLeftOver lostRegistrations (Details.neighbour "").id := by
  let manager := (initialStrict.undergo lostRegistrations).world.manager
  have hempty : initialStrict.manager.HasEmptyMemory := hasEmptyMemory_initial _
  obtain ⟨-, hlocated, hqueued⟩ := stores_agree_amid initialStrict hempty lostRegistrations
  obtain ⟨record, hrecord, helsewhere⟩ := exists_stranded_record
  have habsent : ¬ manager.registry.contains (Details.neighbour "").id = true := by decide +kernel
  refine ⟨hempty, Classical.byContradiction fun hplaced ↦ ?_, ?_⟩
  · exact helsewhere ((hlocated _ record hrecord).mpr hplaced)
  · exact (hqueued _ (by decide +kernel)).resolve_left habsent

/-- Once all has ended the stores need not agree: after a lost move the topology holds another location than the
record, and after a lost first registration commands wait for a datanode that is not registered. -/
theorem not_stores_agree_at_rest :
    let overlap := initialStrict.undergo lostRegistrations
    let manager := overlap.world.manager
    initialStrict.manager.HasEmptyMemory ∧ initialStrict.manager.configuration.isStrict = true ∧
      overlap.IsAtRest ∧
      ¬ (∀ id record, manager.registry.get? id = some record →
        (manager.topology.location? id).map (fun location ↦ some (Value.text location)) =
          some record.details.networkLocation) ∧
      ¬ ∀ id, manager.commands.peek id ≠ [] → manager.registry.contains id = true := by
  intro overlap manager
  refine ⟨hasEmptyMemory_initial _, by decide +kernel, by decide +kernel, fun hlocated ↦ ?_, fun hqueued ↦ ?_⟩
  · obtain ⟨record, hrecord, helsewhere⟩ := exists_stranded_record
    exact helsewhere (hlocated _ record hrecord)
  · have hregistered := hqueued (Details.neighbour "").id (by decide +kernel)
    exact absurd hregistered (by decide +kernel)

end World

end ClusterMembership
