import ClusterMembership.Proofs.Departure
import ClusterMembership.Proofs.TopologyAdmission

/-!
# Writes that fail under strict durability

A registration is placed first and written afterwards.  When the write fails and the registration is given up, the
stores are put back: not only do they show the same again, they are the same, in the same order.  The topology alone
may hold its leaves in another order, which nothing depends on but the order itself.  It takes the datanode back at
the old location, since all other leaves lie at the depth of that.
-/

namespace ClusterMembership

namespace Topology

/-- A placed datanode fits where it is. -/
theorem Sound.fits_of_location? {topology : Topology} (hsound : topology.Sound) {id location : String}
    (h : topology.location? id = some location) : topology.Fits id location where
  absolute := Location.isAbsolute_iff.mp (hsound.absolute h).1
  segmented := List.length_pos_iff.mpr (hsound.absolute h).2
  level := fun _ hthere ↦ depthOf_eq_iff.mp (hsound.level hthere h)

end Topology

namespace Manager

/-- Two states of a manager between which a registration has come and gone: all stores are as they were, the topology
but for the order of its leaves, and nothing was published. -/
structure Untouched (before after : Manager) : Prop where
  registry : after.registry = before.registry
  location? : ∀ id, after.topology.location? id = before.topology.location? id
  known : after.known = before.known
  commands : after.commands = before.commands
  unsynced : after.unsynced = before.unsynced
  cluster : after.cluster = before.cluster
  events : after.trace.events = before.trace.events

variable {manager : Manager}

/-! ## Placing -/

/-- A datanode is placed exactly where it fits, whether it is new or known. -/
theorem Sound.placing_snd_eq_none_iff (hsound : manager.Sound) {request : RegistrationRequest}
    (hkept : request.details.Kept) : (manager.placing request).2 = none ↔
      manager.topology.Fits request.details.id request.details.location := by
  have hplaced := hsound.placed request.details.id
  unfold Manager.placing Manager.place
  simp only
  split
  · have hupdate := Topology.update_snd_eq_none_iff hsound.topology request.details.id request.details.location
    rw [hkept.meant_location, Topology.admits_remove_iff_fits,
      or_iff_right_of_imp hsound.topology.fits_of_location?] at hupdate
    rw [← hupdate]
    split
    · next topology refusal hrefused => simp [hrefused]
    · next topology hmoved => simp [hmoved]
  · next hregistered =>
    rw [standing_eq_none_of_contains_eq_false (Bool.not_eq_true _ ▸ hregistered), Option.map_none] at hplaced
    have hadd := Topology.exists_add_eq_ok_iff hsound.topology hplaced request.details.location
    rw [hkept.meant_location, Topology.admits_iff_fits_of_absent hplaced] at hadd
    rw [← hadd]
    split
    · next refusal hrefused => simp [hrefused]
    · next topology hadded => simp [hadded]

/-- The record that a placement stores: the details of a registered datanode are renewed and it is heard of, and a
new datanode starts with what it reports. -/
def placedRecord (manager : Manager) (details : Details) (layout : LayoutReport) (now : Instant) : NodeRecord :=
  match manager.registry.get? details.id with
  | some previous => Registry.heard (some layout) now (Registry.detailed details now previous)
  | none => .registered details layout now

/-- A placement stores one record and no other. -/
theorem registry_of_place {details : Details} {layout : LayoutReport} {now : Instant} {inPlace : Manager}
    (h : manager.place details layout now = (inPlace, none)) :
    inPlace.registry = ⟨manager.registry.records.insert details.id (manager.placedRecord details layout now)⟩ := by
  unfold place at h
  simp only at h
  split at h
  · next hregistered =>
    obtain ⟨previous, hprevious⟩ := (Registry.contains_iff _ _).mp hregistered
    split at h
    · simp at h
    · have hinPlace : _ = inPlace := congrArg Prod.fst h
      have hid : (Registry.detailed details now previous).id = details.id := details.id_withOperational _ _
      have hdetailed := Registry.amend_of_get? hprevious hid
      have hfound : (manager.registry.amend details.id (Registry.detailed details now)).get? details.id =
          some (Registry.detailed details now previous) := by
        rw [hdetailed, Registry.get?, OrderedMap.get?_insert, if_pos rfl]
      have hheard : (manager.registry.amend details.id (Registry.detailed details now)).amend details.id
          (Registry.heard (some layout) now) = _ := Registry.amend_of_get? hfound hid
      rw [← hinPlace, placedRecord, hprevious]
      refine hheard.trans ?_
      rw [hdetailed, OrderedMap.insert_insert]
  · next habsent =>
    have hnone := (Registry.contains_eq_false_iff _ _).mp (Bool.not_eq_true _ ▸ habsent)
    split at h
    · simp at h
    · have hinPlace : _ = inPlace := congrArg Prod.fst h
      rw [← hinPlace, placedRecord, hnone]
      rfl

/-! ## Undoing -/

/-- To undo a placement is to put back the record and the descriptor from before it. -/
theorem exists_undoPlacement_eq (manager : Manager) (placed : PlacedRegistration)
    (hprevious : ∀ record ∈ placed.previous, record.id = placed.request.details.id) :
    ∃ topology entries, manager.undoPlacement placed =
      { manager with
        known := manager.known.restore placed.request.details.id placed.previousDescriptor
        registry := ⟨manager.registry.records.restore placed.request.details.id placed.previous⟩
        topology
        trace := { manager.trace with entries } } := by
  unfold undoPlacement
  simp only
  split
  · next hnone =>
    rw [hnone]
    exact ⟨_, _, rfl⟩
  · next previous hsome =>
    rw [hsome, ← hprevious previous hsome]
    split <;> exact ⟨_, _, rfl⟩

/-- Under strict durability a registration whose write fails is undone. -/
theorem exists_finishRegistration_error (hstrict : manager.configuration.isStrict = true)
    (placed : PlacedRegistration) (cause : Failure) :
    ∃ entries, manager.finishRegistration placed (.error cause) =
      ((manager.relog entries).undoPlacement placed,
        .error (.service (cause.wrapPersistence "put" (some placed.request.details.id)))) := by
  unfold finishRegistration settleWrite
  simp only [hstrict, if_true]
  exact ⟨_, rfl⟩

end Manager

namespace World

variable {world : World}

/-- A table is asked and answers, and the service logs at most. -/
theorem exists_ask_eq (world : World) {number : Nat} {table after : Table} (htable : world.tables[number]? = some table)
    {request : TableRequest} {page : Option PageNote} {answer : TableAnswer}
    (hperform : table.perform world.clock request = (after, page, answer)) :
    ∃ entries, world.ask number request =
      ({ world.withManager (world.manager.relog entries) with tables := world.tables.set number after }, answer) := by
  obtain ⟨entries, hentries⟩ := world.manager.noteAll_eq_relog (page.map pageNote).toList
  refine ⟨entries, ?_⟩
  unfold ask
  rw [htable]
  simp only [hperform]
  unfold mapManager
  rw [← hentries]
  rfl

/-- What a registration is to write: the details that are kept, with the operational state of a datanode that is
registered already. -/
def toWrite (world : World) (details : Details) : Details :=
  (Standing.renewed (world.manager.standing details.id) details.located).details

end World

end ClusterMembership
