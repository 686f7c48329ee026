import ClusterMembership.Proofs.Admission
import ClusterMembership.Proofs.Standing
import ClusterMembership.Proofs.Topology

/-!
# Sound managers

In a sound manager the stores fit together: the registry and the topology hold the same datanodes at the same
locations, the details of each repeat its operational state, and nothing is kept for a datanode that is not
registered, save what is known of those that were refused.  Whatever tends a manager keeps it sound.  The
changes that do more are a placement, its undoing, a change of an operational state, a removal and the
bookkeeping of durable writes; each is described here by what it does to the standing of every datanode.
-/

namespace ClusterMembership

/-- A standing that fits the identifier that it is held under. -/
structure Standing.Sound (standing : Standing) (id : String) : Prop where
  identified : standing.details.id = id
  kept : standing.details.Kept
  operational : standing.details.operational = standing.operational
  expiry : standing.details.expiry = standing.expiry

namespace Standing

/-- The standing of a datanode after it has registered with details: a new datanode stands as it reports, one
that was registered keeps its operational state. -/
def renewed (previous : Option Standing) (details : Details) : Standing :=
  match previous with
  | none => ⟨details, details.operational, details.expiry⟩
  | some standing =>
    ⟨details.withOperational standing.operational standing.expiry, standing.operational, standing.expiry⟩

/-- The standing of a datanode after its operational state was set. -/
def restated (state expiry : Field) (standing : Standing) : Standing :=
  ⟨standing.details.withOperational state expiry, state, expiry⟩

theorem sound_renewed (previous : Option Standing) {details : Details} (hkept : details.Kept) :
    (renewed previous details).Sound details.id := by
  cases previous with
  | none => exact ⟨rfl, hkept, rfl, rfl⟩
  | some standing =>
    exact ⟨details.id_withOperational _ _, hkept.withOperational _ _,
      details.operational_withOperational _ _, details.expiry_withOperational _ _⟩

theorem Sound.restated {standing : Standing} {id : String} (hsound : standing.Sound id)
    (state expiry : Field) : (standing.restated state expiry).Sound id where
  identified := (standing.details.id_withOperational state expiry).trans hsound.identified
  kept := hsound.kept.withOperational state expiry
  operational := standing.details.operational_withOperational state expiry
  expiry := standing.details.expiry_withOperational state expiry

/-- A datanode that registers again with the details that it is held with stands as before. -/
theorem Sound.renewed_self {standing : Standing} {id : String} (hsound : standing.Sound id) :
    renewed (some standing) standing.details = standing := by
  have hdetails : standing.details.withOperational standing.operational standing.expiry =
      standing.details := by
    rw [← hsound.operational, ← hsound.expiry]
    exact standing.details.withOperational_self
  unfold renewed
  simp only [hdetails]

@[simp]
theorem location_renewed (previous : Option Standing) (details : Details) :
    (renewed previous details).details.location = details.location := by
  cases previous with
  | none => rfl
  | some standing => exact details.location_withOperational _ _

@[simp]
theorem location_restated (standing : Standing) (state expiry : Field) :
    (standing.restated state expiry).details.location = standing.details.location :=
  standing.details.location_withOperational state expiry

end Standing

namespace Manager

/-- A manager whose stores fit together. -/
structure Sound (manager : Manager) : Prop where
  records : ∀ {id standing}, manager.standing id = some standing → standing.Sound id
  placed : ∀ id, manager.topology.location? id =
    (manager.standing id).map fun standing ↦ standing.details.location
  topology : manager.topology.Sound
  known : ∀ {id}, manager.registry.contains id = true → manager.known.peek id ≠ none
  queued : ∀ {id}, manager.commands.peek id ≠ [] → manager.registry.contains id = true
  held : ∀ {id}, manager.commands.reported? id ≠ none → manager.registry.contains id = true
  unsynced : ∀ {id}, id ∈ manager.unsynced → manager.registry.contains id = true

namespace Sound

variable {manager : Manager}

theorem keyed (hsound : manager.Sound) : manager.Keyed := by
  intro id record hrecord
  exact (hsound.records (standing_eq_some hrecord)).identified

theorem of_stores {after : Manager} (hsound : manager.Sound)
    (hregistry : ∀ id, after.standing id = manager.standing id)
    (hplaced : ∀ id, after.topology.location? id = manager.topology.location? id)
    (hknown : ∀ {id}, manager.known.peek id ≠ none → after.known.peek id ≠ none)
    (hqueued : ∀ {id}, after.commands.peek id ≠ [] →
      manager.commands.peek id ≠ [] ∨ manager.registry.contains id = true)
    (hheld : ∀ {id}, after.commands.reported? id ≠ none →
      manager.commands.reported? id ≠ none ∨ manager.registry.contains id = true)
    (hunsynced : ∀ {id}, id ∈ after.unsynced →
      id ∈ manager.unsynced ∨ manager.registry.contains id = true) : after.Sound := by
  have hcontains (id : String) : after.registry.contains id = manager.registry.contains id := by
    rw [contains_eq_isSome_standing, contains_eq_isSome_standing, hregistry]
  exact
    { records := fun h ↦ hsound.records ((hregistry _).symm.trans h)
      placed := fun id ↦ by rw [hplaced, hregistry, hsound.placed]
      topology := hsound.topology.of_location?_eq hplaced
      known := fun h ↦ hknown (hsound.known (hcontains _ ▸ h))
      queued := fun h ↦ hcontains _ ▸ (hqueued h).elim hsound.queued fun hregistered ↦ hregistered
      held := fun h ↦ hcontains _ ▸ (hheld h).elim hsound.held fun hregistered ↦ hregistered
      unsynced := fun h ↦
        hcontains _ ▸ (hunsynced h).elim hsound.unsynced fun hregistered ↦ hregistered }

/-- Tending a manager keeps it sound. -/
theorem tended {after : Manager} (hsound : manager.Sound) (htended : manager.Tended after) :
    after.Sound :=
  hsound.of_stores htended.standing htended.placed htended.known htended.queued htended.held
    fun h ↦ .inl (htended.unsynced ▸ h)

end Sound

/-- A manager that knows nothing is sound. -/
theorem sound_of_empty {manager : Manager} (hregistry : manager.registry = .empty)
    (hcommands : manager.commands = .empty) (htopology : manager.topology = .empty)
    (hunsynced : manager.unsynced = []) : manager.Sound where
  records h := by simp [standing, hregistry] at h
  placed id := by simp [standing, hregistry, htopology]
  topology := htopology ▸ Topology.sound_empty
  known h := by simp [Registry.contains_iff, hregistry] at h
  queued h := by simp [hcommands] at h
  held h := by simp [hcommands] at h
  unsynced h := by simp [hunsynced] at h

/-! ## The bookkeeping of durable writes -/

theorem mem_unsynced_markSynced (manager : Manager) (id other : String) :
    other ∈ (manager.markSynced id).unsynced ↔ other ∈ manager.unsynced ∧ other ≠ id := by
  simp [markSynced]

theorem mem_unsynced_markUnsynced (manager : Manager) (id other : String) :
    other ∈ (manager.markUnsynced id).unsynced ↔ other ∈ manager.unsynced ∨ other = id := by
  unfold markUnsynced
  split
  · next hmem =>
    have hid : id ∈ manager.unsynced := List.contains_iff_mem.mp hmem
    constructor
    · exact .inl
    · rintro (h | rfl)
      · exact h
      · exact hid
  · simp

theorem Sound.markSynced {manager : Manager} (hsound : manager.Sound) (id : String) :
    (manager.markSynced id).Sound := by
  refine hsound.of_stores (fun _ ↦ rfl) (fun _ ↦ rfl) (fun h ↦ h) .inl .inl fun {other} hother ↦ ?_
  exact .inl ((mem_unsynced_markSynced manager id other).mp hother).1

/-- Marking a datanode changes nothing but the marks. -/
theorem markUnsynced_eq (manager : Manager) (id : String) :
    ∃ marks, manager.markUnsynced id = { manager with unsynced := marks } := by
  unfold markUnsynced
  split
  · exact ⟨manager.unsynced, rfl⟩
  · exact ⟨_, rfl⟩

theorem Sound.markUnsynced {manager : Manager} (hsound : manager.Sound) {id : String}
    (hregistered : manager.registry.contains id = true) : (manager.markUnsynced id).Sound := by
  have hmem := mem_unsynced_markUnsynced manager id
  obtain ⟨marks, hmarks⟩ := markUnsynced_eq manager id
  rw [hmarks] at hmem ⊢
  refine hsound.of_stores (fun _ ↦ rfl) (fun _ ↦ rfl) (fun h ↦ h) .inl .inl fun {other} hother ↦ ?_
  rcases (hmem other).mp hother with hmarked | hsame
  · exact .inl hmarked
  · exact .inr (hsame ▸ hregistered)

end Manager

end ClusterMembership
