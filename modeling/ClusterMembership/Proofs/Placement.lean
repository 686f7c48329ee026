import ClusterMembership.Proofs.Soundness
import ClusterMembership.Service.Administration

/-!
# Placing, restating and forgetting datanodes

A placement that the topology accepts renews the standing of one datanode and moves it to the location of its
details; a refused one leaves every standing and every location as it was.  Undoing a placement brings back
what was there before, because the old location is at the depth of all other leaves and is therefore
admitted again.  A change of an operational state restates one standing, and a removal forgets one.
-/

namespace ClusterMembership.Manager

variable {manager : Manager}

/-! ## Standings after a change of the registry -/

theorem keyed_of_standing
    (h : ∀ {id standing}, manager.standing id = some standing → standing.details.id = id) :
    manager.Keyed := by
  intro id record hrecord
  exact h (standing_eq_some hrecord)

theorem standing_amend {id : String} (change : NodeRecord → NodeRecord)
    (changeStanding : Standing → Standing)
    (hid : ∀ record, manager.registry.get? id = some record → (change record).id = id)
    (hchange : ∀ record, (change record).standing = changeStanding record.standing) (other : String) :
    ({ manager with registry := manager.registry.amend id change } : Manager).standing other =
      if id = other then (manager.standing id).map changeStanding else manager.standing other := by
  unfold standing
  rw [Registry.get?_amend _ _ _ _ hid]
  by_cases h : id = other
  · rw [if_pos h, if_pos h, Option.map_map, Option.map_map]
    exact congrArg (fun read ↦ (manager.registry.get? id).map read) (funext hchange)
  · rw [if_neg h, if_neg h]

theorem standing_upsert (manager : Manager) (record : NodeRecord) (other : String) :
    ({ manager with registry := manager.registry.upsert record } : Manager).standing other =
      if record.id = other then some record.standing else manager.standing other := by
  unfold standing
  rw [Registry.get?_upsert]
  split <;> rfl

theorem standing_erase (manager : Manager) (id other : String) :
    ({ manager with registry := manager.registry.erase id } : Manager).standing other =
      if id = other then none else manager.standing other := by
  unfold standing
  rw [Registry.get?_erase]
  split <;> rfl

theorem standing_eq_none_of_contains_eq_false {id : String} (h : manager.registry.contains id = false) :
    manager.standing id = none := by
  rw [standing, (Registry.contains_eq_false_iff _ _).mp h, Option.map_none]

/-! ## Placing -/

/-- A placement changes the registry and the topology only. -/
theorem exists_place_eq (manager : Manager) (details : Details) (layout : LayoutReport) (now : Instant) :
    ∃ registry topology, (manager.place details layout now).1 =
      { manager with registry := registry, topology := topology } := by
  unfold place
  simp only
  split
  · split
    · exact ⟨manager.registry, _, rfl⟩
    · exact ⟨_, _, rfl⟩
  · split
    · exact ⟨manager.registry, manager.topology, rfl⟩
    · exact ⟨_, _, rfl⟩

/-- The records that a re-registration replaces: the details are renewed and the datanode is heard of. -/
theorem standing_detailed_heard (hkeyed : manager.Keyed) (details : Details) (layout : LayoutReport)
    (now : Instant) (id : String) :
    ({ manager with
        registry := (manager.registry.amend details.id (Registry.detailed details now)).amend details.id
          (Registry.heard (some layout) now) } : Manager).standing id =
      if details.id = id then
        (manager.standing details.id).map fun standing ↦ Standing.renewed (some standing) details
      else manager.standing id := by
  let detailed : Manager :=
    { manager with registry := manager.registry.amend details.id (Registry.detailed details now) }
  have hdetailed (other : String) : detailed.standing other =
      if details.id = other then
        (manager.standing details.id).map fun standing ↦ Standing.renewed (some standing) details
      else manager.standing other :=
    standing_amend (Registry.detailed details now) (fun standing ↦ .renewed (some standing) details)
      (fun _ _ ↦ details.id_withOperational _ _) (fun _ ↦ rfl) other
  have hkeyed' : detailed.Keyed := by
    apply keyed_of_standing
    intro other standing hstanding
    rw [hdetailed] at hstanding
    split at hstanding
    · next hother =>
      obtain ⟨previous, -, hrenewed⟩ := Option.map_eq_some_iff.mp hstanding
      rw [← hrenewed, ← hother]
      exact details.id_withOperational _ _
    · obtain ⟨record, hrecord, hsame⟩ := exists_record_of_standing hstanding
      rw [← hsame]
      exact hkeyed hrecord
  have hheard := detailed.tended_amend hkeyed' details.id (Registry.heard (some layout) now) fun _ ↦ rfl
  exact (hheard.standing id).trans (hdetailed id)

/-- What an accepted placement makes of the standings. -/
theorem standing_place (hkeyed : manager.Keyed) {details : Details} {layout : LayoutReport} {now : Instant}
    {after : Manager} (h : manager.place details layout now = (after, none)) (id : String) :
    after.standing id =
      if details.id = id then some (Standing.renewed (manager.standing details.id) details)
      else manager.standing id := by
  unfold place at h
  simp only at h
  split at h
  · next hregistered =>
    split at h
    · simp at h
    · rw [contains_eq_isSome_standing] at hregistered
      obtain ⟨previous, hprevious⟩ := Option.isSome_iff_exists.mp hregistered
      have hafter : _ = after := congrArg Prod.fst h
      rw [← hafter, hprevious]
      have hrenewed := standing_detailed_heard hkeyed details layout now id
      rw [hprevious] at hrenewed
      exact hrenewed
  · next hregistered =>
    have hprevious := standing_eq_none_of_contains_eq_false (Bool.not_eq_true _ ▸ hregistered)
    split at h
    · simp at h
    · have hafter : _ = after := congrArg Prod.fst h
      rw [← hafter, hprevious]
      exact standing_upsert manager (.registered details layout now) id

theorem location?_place {details : Details} (hkept : details.Kept) {layout : LayoutReport} {now : Instant}
    {after : Manager} (h : manager.place details layout now = (after, none)) (id : String) :
    after.topology.location? id =
      if details.id = id then some details.location else manager.topology.location? id := by
  unfold place at h
  simp only at h
  split at h
  · split at h
    · simp at h
    · next moved hmoved =>
      have hafter : _ = after := congrArg Prod.fst h
      rw [← hafter]
      have hlocation := Topology.location?_update_of_placed hmoved id
      rwa [hkept.meant_location] at hlocation
  · split at h
    · simp at h
    · next added hadded =>
      have hafter : _ = after := congrArg Prod.fst h
      rw [← hafter]
      have hlocation := Topology.location?_add hadded id
      rwa [hkept.meant_location] at hlocation

theorem topology_place (hsound : manager.topology.Sound) {details : Details} (hkept : details.Kept)
    (layout : LayoutReport) (now : Instant) : (manager.place details layout now).1.topology.Sound := by
  have hid := hkept.segments_id_ne_nil
  unfold place
  simp only
  split
  · have hmoved := hsound.update hid details.location
    split
    · next hupdate => rwa [hupdate] at hmoved
    · next hupdate => rwa [hupdate] at hmoved
  · split
    · exact hsound
    · next topology hadded => exact hsound.add hid hadded

/-- A refused placement changes nothing that counts. -/
theorem tended_of_place_refused {details : Details} {layout : LayoutReport} {now : Instant}
    {after : Manager} {refusal : Refusal}
    (h : manager.place details layout now = (after, some refusal)) : manager.Tended after := by
  unfold place at h
  simp only at h
  split at h
  · split at h
    · next topology refusal hrefused =>
      have hafter : _ = after := congrArg Prod.fst h
      rw [← hafter]
      exact { Tended.refl manager with placed := Topology.location?_update_of_refused hrefused }
    · simp at h
  · split at h
    · have hafter : _ = after := congrArg Prod.fst h
      rw [← hafter]
      exact .refl manager
    · simp at h

/-- The stores that a placement leaves alone. -/
structure SameRest (before after : Manager) : Prop where
  known : after.known = before.known
  commands : after.commands = before.commands
  unsynced : after.unsynced = before.unsynced
  settings : after.settings = before.settings

theorem sameRest_place (manager : Manager) (details : Details) (layout : LayoutReport) (now : Instant) :
    manager.SameRest (manager.place details layout now).1 := by
  obtain ⟨registry, topology, hplace⟩ := manager.exists_place_eq details layout now
  rw [hplace]
  exact ⟨rfl, rfl, rfl, rfl⟩

/-- A known datanode with details in their kept form can be placed in a sound manager. -/
theorem Sound.place (hsound : manager.Sound) {details : Details} (hkept : details.Kept)
    (hknown : manager.known.peek details.id ≠ none) {layout : LayoutReport} {now : Instant}
    {after : Manager} (h : manager.place details layout now = (after, none)) : after.Sound := by
  have hstanding := standing_place hsound.keyed h
  have hlocation := location?_place hkept h
  have hafter : (manager.place details layout now).1 = after := congrArg Prod.fst h
  have hrest := hafter ▸ manager.sameRest_place details layout now
  have hcontains {id : String} (hid : manager.registry.contains id = true) :
      after.registry.contains id = true := by
    rw [contains_eq_isSome_standing] at hid ⊢
    rw [hstanding]
    split
    · rfl
    · exact hid
  exact
    { records := fun {id standing} hid ↦ by
        rw [hstanding] at hid
        split at hid
        · next hsame =>
          rw [← Option.some.inj hid, ← hsame]
          exact Standing.sound_renewed _ hkept
        · exact hsound.records hid
      placed := fun id ↦ by
        rw [hstanding, hlocation]
        split
        · rw [Option.map_some, Standing.location_renewed]
        · exact hsound.placed id
      topology := hafter ▸ topology_place hsound.topology hkept layout now
      known := fun {id} hid ↦ by
        rw [hrest.known]
        by_cases hsame : details.id = id
        · exact hsame ▸ hknown
        · apply hsound.known
          rw [contains_eq_isSome_standing] at hid ⊢
          rwa [hstanding, if_neg hsame] at hid
      queued := fun hqueued ↦ hcontains (hsound.queued (hrest.commands ▸ hqueued))
      held := fun hheld ↦ hcontains (hsound.held (hrest.commands ▸ hheld))
      unsynced := fun hmem ↦ hcontains (hsound.unsynced (hrest.unsynced ▸ hmem)) }

/-! ## Undoing a placement -/

/-- A sound manager with the attributes of one more datanode. -/
theorem Sound.record (hsound : manager.Sound) (details : Details) :
    ({ manager with known := manager.known.record details } : Manager).Sound := by
  refine hsound.of_stores (fun _ ↦ rfl) (fun _ ↦ rfl) (fun {id} hid ↦ ?_) .inl .inl .inl
  rw [KnownNodes.peek_record]
  split
  · simp
  · exact hid

/-- The location that a datanode had before a placement is admitted again after it. -/
theorem Sound.admits_previous (hsound : manager.Sound) {standing : Standing} {id : String}
    (hstanding : manager.standing id = some standing) {topology : Topology} {location : String}
    (hlocation : ∀ other, topology.location? other =
      if id = other then some location else manager.topology.location? other) :
    (topology.remove id).Admits standing.details.location := by
  have hformed := (hsound.records hstanding).kept.isWellFormed_location
  have hprevious : manager.topology.location? id = some standing.details.location := by
    rw [hsound.placed, hstanding, Option.map_some]
  refine ⟨Location.isAbsolute_of_isWellFormed hformed,
    Location.segments_ne_nil_of_isWellFormed hformed, fun {other there} hother ↦ ?_⟩
  rw [Topology.location?_remove, hlocation] at hother
  split at hother
  · simp at hother
  · exact hsound.topology.level hother hprevious

/-- What is in memory after a datanode was placed, in terms of what was there before. -/
structure Displaced (before after : Manager) (details : Details) : Prop where
  standing : ∀ other, after.standing other =
    if details.id = other then some (Standing.renewed (before.standing details.id) details)
    else before.standing other
  location : ∀ other, after.topology.location? other =
    if details.id = other then some details.location else before.topology.location? other
  known : ∀ {other}, details.id ≠ other → after.known.peek other = before.known.peek other
  topology : after.topology.Sound
  commands : after.commands = before.commands
  unsynced : after.unsynced = before.unsynced
  settings : after.settings = before.settings

theorem displaced_of_place (hsound : manager.Sound) {details : Details} (hkept : details.Kept)
    {layout : LayoutReport} {now : Instant} {inPlace failed : Manager}
    (hplace : ({ manager with known := manager.known.record details } : Manager).place details layout now =
      (inPlace, none))
    (halike : inPlace.Alike failed) : manager.Displaced failed details := by
  let recorded : Manager := { manager with known := manager.known.record details }
  have hrecorded : recorded.Sound := hsound.record details
  have hinPlace : (recorded.place details layout now).1 = inPlace := congrArg Prod.fst hplace
  have hrest : recorded.SameRest inPlace := hinPlace ▸ recorded.sameRest_place details layout now
  exact
    { standing := fun other ↦ (halike.standing other).trans (standing_place hrecorded.keyed hplace other)
      location := fun other ↦ by
        rw [halike.topology]
        exact location?_place hkept hplace other
      known := fun {other} hdifferent ↦ by
        have hpeek := KnownNodes.peek_record manager.known details other
        rw [if_neg hdifferent] at hpeek
        rw [← hpeek, halike.known, hrest.known]
      topology := by
        rw [halike.topology, ← hinPlace]
        exact topology_place hrecorded.topology hkept layout now
      commands := halike.commands.trans hrest.commands
      unsynced := halike.unsynced.trans hrest.unsynced
      settings := halike.settings.trans hrest.settings }

namespace Displaced

variable {failed undone : Manager} {details : Details}

/-- The membership is back once the standings and the locations are and the descriptor is restored. -/
theorem tended_undone (h : manager.Displaced failed details)
    (hstanding : ∀ other, undone.standing other = manager.standing other)
    (hlocation : ∀ other, undone.topology.location? other = manager.topology.location? other)
    (hknown : undone.known = failed.known.restore details.id (manager.known.peek details.id))
    (hcommands : undone.commands = failed.commands) (hunsynced : undone.unsynced = failed.unsynced)
    (hsettings : undone.settings = failed.settings) : manager.Tended undone where
  standing := hstanding
  placed := hlocation
  known := fun {other} hother ↦ by
    rw [hknown, KnownNodes.peek_restore]
    split
    · next hsame => exact hsame ▸ hother
    · next hdifferent => rwa [h.known hdifferent]
  unsynced := hunsynced.trans h.unsynced
  queued := fun hqueued ↦ .inl (h.commands ▸ hcommands ▸ hqueued)
  held := fun hheld ↦ .inl (h.commands ▸ hcommands ▸ hheld)
  settings := hsettings.trans h.settings

/-- A datanode that is new is taken out again. -/
theorem tended_taken_out (h : manager.Displaced failed details) (hsound : manager.Sound)
    (hnone : manager.standing details.id = none) :
    manager.Tended
      { failed with
        known := failed.known.restore details.id (manager.known.peek details.id)
        registry := failed.registry.erase details.id
        topology := failed.topology.remove details.id } := by
  refine h.tended_undone (fun other ↦ ?_) (fun other ↦ ?_) rfl rfl rfl rfl
  · refine (standing_erase failed details.id other).trans ?_
    rw [h.standing]
    split
    · next hsame => rw [← hsame, hnone]
    · rfl
  · refine (Topology.location?_remove failed.topology details.id other).trans ?_
    rw [h.location]
    split
    · next hsame => rw [← hsame, hsound.placed, hnone, Option.map_none]
    · rfl

/-- A datanode that was moved goes back to where it was, which the topology admits. -/
theorem tended_put_back (h : manager.Displaced failed details) (hsound : manager.Sound)
    {previous : NodeRecord} (hsome : manager.standing details.id = some previous.standing) :
    ∃ restored, failed.topology.update details.id previous.details.location = (restored, none) ∧
      manager.Tended
        { failed with
          known := failed.known.restore details.id (manager.known.peek details.id)
          registry := failed.registry.upsert previous
          topology := restored } := by
  have hold := hsound.records hsome
  have hmeant : Topology.meant previous.details.location = previous.details.location :=
    hold.kept.meant_location
  have hadmitted : (failed.topology.update details.id previous.details.location).2 = none := by
    rw [Topology.update_snd_eq_none_iff h.topology, hmeant]
    exact .inr (hsound.admits_previous hsome h.location)
  obtain ⟨restored, hrestored⟩ : ∃ restored,
      failed.topology.update details.id previous.details.location = (restored, none) :=
    ⟨_, Prod.ext rfl hadmitted⟩
  refine ⟨restored, hrestored, ?_⟩
  refine h.tended_undone (fun other ↦ ?_) (fun other ↦ ?_) rfl rfl rfl rfl
  · refine (standing_upsert failed previous other).trans ?_
    rw [h.standing, show previous.id = details.id from hold.identified]
    split
    · next hsame => rw [← hsame, hsome]
    · rfl
  · refine (Topology.location?_update_of_placed hrestored other).trans ?_
    rw [h.location, hmeant]
    split
    · next hsame =>
      rw [← hsame, hsound.placed, hsome, Option.map_some]
      rfl
    · rfl

end Displaced

/-- Undoing a placement brings back the membership from before it. -/
theorem tended_undoPlacement (hsound : manager.Sound) {placed : PlacedRegistration}
    (hkept : placed.request.details.Kept) {layout : LayoutReport} {now : Instant} {inPlace failed : Manager}
    (hprevious : placed.previous = manager.registry.get? placed.request.details.id)
    (hdescriptor : placed.previousDescriptor = manager.known.peek placed.request.details.id)
    (hplace : ({ manager with known := manager.known.record placed.request.details } : Manager).place
      placed.request.details layout now = (inPlace, none))
    (halike : inPlace.Alike failed) : manager.Tended (failed.undoPlacement placed) := by
  have hdisplaced := displaced_of_place hsound hkept hplace halike
  unfold undoPlacement
  simp only [hprevious, hdescriptor]
  cases hrecord : manager.registry.get? placed.request.details.id with
  | none =>
    have hnone : manager.standing placed.request.details.id = none := by
      rw [standing, hrecord, Option.map_none]
    exact hdisplaced.tended_taken_out hsound hnone
  | some previous =>
    obtain ⟨restored, hrestored, htended⟩ := hdisplaced.tended_put_back hsound (standing_eq_some hrecord)
    simp only [hrestored]
    exact htended

/-! ## Restating and forgetting -/

/-- A manager with another operational state of a datanode, which has yet to be written. -/
def restate (manager : Manager) (id : String) (state expiry : Field) (now : Instant) : Manager :=
  { manager with registry := manager.registry.amend id (Registry.restated state expiry now) }

theorem standing_restate (hkeyed : manager.Keyed) (id : String) (state expiry : Field) (now : Instant)
    (other : String) :
    (manager.restate id state expiry now).standing other =
      if id = other then (manager.standing id).map (Standing.restated state expiry)
      else manager.standing other := by
  apply standing_amend (Registry.restated state expiry now) (Standing.restated state expiry)
  · intro record hrecord
    exact (record.details.id_withOperational state expiry).trans (hkeyed hrecord)
  · exact fun _ ↦ rfl

theorem contains_restate (hkeyed : manager.Keyed) (id : String) (state expiry : Field) (now : Instant)
    (other : String) :
    (manager.restate id state expiry now).registry.contains other = manager.registry.contains other := by
  rw [contains_eq_isSome_standing, contains_eq_isSome_standing, standing_restate hkeyed]
  split
  · next hsame => rw [Option.isSome_map, hsame]
  · rfl

/-- Setting an operational state keeps a manager sound. -/
theorem Sound.restate (hsound : manager.Sound) (id : String) (state expiry : Field) (now : Instant) :
    (manager.restate id state expiry now).Sound := by
  have hstanding := standing_restate hsound.keyed id state expiry now
  have hcontains := contains_restate hsound.keyed id state expiry now
  exact
    { records := fun {other standing} hother ↦ by
        rw [hstanding] at hother
        split at hother
        · next hsame =>
          obtain ⟨previous, hprevious, hrestated⟩ := Option.map_eq_some_iff.mp hother
          rw [← hrestated, ← hsame]
          exact (hsound.records hprevious).restated state expiry
        · exact hsound.records hother
      placed := fun other ↦ by
        rw [hstanding]
        split
        · next hsame =>
          rw [Option.map_map, ← hsame]
          refine (hsound.placed id).trans ?_
          exact congrArg (fun read ↦ (manager.standing id).map read)
            (funext fun standing ↦ (standing.location_restated state expiry).symm)
        · exact hsound.placed other
      topology := hsound.topology
      known := fun h ↦ hsound.known (hcontains _ ▸ h)
      queued := fun h ↦ (hcontains _).trans (hsound.queued h)
      held := fun h ↦ (hcontains _).trans (hsound.held h)
      unsynced := fun h ↦ (hcontains _).trans (hsound.unsynced h) }

theorem standing_forget (manager : Manager) (id other : String) :
    (manager.forget id).standing other = if id = other then none else manager.standing other :=
  standing_erase manager id other

theorem mem_unsynced_forget (manager : Manager) (id other : String) :
    other ∈ (manager.forget id).unsynced ↔ other ∈ manager.unsynced ∧ other ≠ id :=
  mem_unsynced_markSynced manager id other

/-- Forgetting a datanode keeps a manager sound. -/
theorem Sound.forget (hsound : manager.Sound) (id : String) : (manager.forget id).Sound := by
  have hstanding := manager.standing_forget id
  have hcontains {other : String} (hother : id ≠ other) :
      (manager.forget id).registry.contains other = manager.registry.contains other := by
    rw [contains_eq_isSome_standing, contains_eq_isSome_standing, hstanding, if_neg hother]
  exact
    { records := fun {other standing} hother ↦ by
        rw [hstanding] at hother
        split at hother
        · simp at hother
        · exact hsound.records hother
      placed := fun other ↦ by
        refine (Topology.location?_remove manager.topology id other).trans ?_
        rw [hstanding]
        split
        · rfl
        · exact hsound.placed other
      topology := hsound.topology.remove id
      known := fun {other} hother ↦ by
        by_cases hsame : id = other
        · rw [contains_eq_isSome_standing, hstanding, if_pos hsame] at hother
          simp at hother
        · have hpeek : (manager.forget id).known.peek other = manager.known.peek other :=
            (KnownNodes.peek_erase manager.known id other).trans (if_neg hsame)
          rw [hpeek]
          exact hsound.known (hcontains hsame ▸ hother)
      queued := fun {other} hother ↦ by
        have hpeek : (manager.forget id).commands.peek other =
            if id = other then [] else manager.commands.peek other :=
          CommandQueue.peek_purge manager.commands id other
        rw [hpeek] at hother
        split at hother
        · exact absurd rfl hother
        · next hsame => exact (hcontains hsame).trans (hsound.queued hother)
      held := fun {other} hother ↦ by
        have hreported : (manager.forget id).commands.reported? other =
            if id = other then none else manager.commands.reported? other :=
          CommandQueue.reported?_purge manager.commands id other
        rw [hreported] at hother
        split at hother
        · exact absurd rfl hother
        · next hsame => exact (hcontains hsame).trans (hsound.held hother)
      unsynced := fun {other} hother ↦ by
        obtain ⟨hmem, hdifferent⟩ := (manager.mem_unsynced_forget id other).mp hother
        exact (hcontains hdifferent.symm).trans (hsound.unsynced hmem) }

end ClusterMembership.Manager
