import ClusterMembership.Proofs.TopologyHistory

/-!
# What a topology admits

Where the leaves of a topology have other characters than slashes in their names, a move is accepted exactly when
the datanode is there already, or when the location is an absolute path with as many segments as the locations of
all others.  Only the topology that was reached counts, and not how it was reached: every history leaves a flat
topology, even one in which leaves with nothing but slashes in their names have come and gone.
-/

namespace ClusterMembership

namespace Topology

/-- The location that is asked for: the empty text asks for the default rack. -/
def asked (offered : String) : String := if offered = "" then "/default-rack" else offered

theorem meant_eq_asked (offered : String) : meant offered = asked offered := rfl

/-- A datanode fits at an absolute path that has a segment, and as many segments as the location of every other
datanode. -/
structure Fits (topology : Topology) (id location : String) : Prop where
  absolute : ∃ rest, location.toList = '/' :: rest
  segmented : 1 ≤ (Location.segments location.toList).length
  level : ∀ {other there}, other ≠ id → topology.location? other = some there →
    (Location.segments there.toList).length = (Location.segments location.toList).length

/-- When a topology accepts a placing or a move, and what its check for datanodes above a location adds to the one
for the depth of the leaves. -/
structure Admission (topology : Topology) : Prop where
  update : ∀ id offered, (∃ moved, topology.update id offered = (moved, none)) ↔
    topology.location? id = some (asked offered) ∨ topology.Fits id (asked offered)
  add_absent : ∀ {id}, topology.location? id = none → ∀ offered,
    (∃ placed, topology.add id offered = .ok placed) ↔ topology.Fits id (asked offered)
  add_placed : ∀ {id location}, topology.location? id = some location → ∀ offered,
    (∃ placed, topology.add id offered = .ok placed) ↔ location = asked offered
  sole : ∀ {id}, (∀ other, other ≠ id → topology.location? other = none) → ∀ offered,
    (∃ rest, (asked offered).toList = '/' :: rest) → 1 ≤ (Location.segments (asked offered).toList).length →
    ∃ moved, topology.update id offered = (moved, none)
  nested_add : ∀ {id offered leaf}, topology.add id offered = .error (.underDatanode leaf) →
    topology.depth ≠ 0 ∧ topology.depth ≠ depthOf (asked offered)
  nested_update : ∀ {id offered kept leaf}, topology.update id offered = (kept, some (.underDatanode leaf)) →
    (topology.remove id).depth ≠ 0 ∧ (topology.remove id).depth ≠ depthOf (asked offered)

/-! ## Histories -/

theorem Flat.change {topology : Topology} (hflat : topology.Flat) (made : TopologyChange) :
    (topology.change made).1.Flat := by
  cases made with
  | add id offered =>
    simp only [Topology.change]
    split
    · next placed hadded => exact hflat.add hadded
    · exact hflat
  | update id offered => exact hflat.update id offered
  | remove id => exact hflat.remove id
  | clear => exact flat_empty

/-- Every history keeps a topology flat, whatever the identifiers in it. -/
theorem Flat.after {topology : Topology} (hflat : topology.Flat) (changes : List TopologyChange) :
    (topology.after changes).Flat := by
  unfold Topology.after
  induction changes generalizing topology with
  | nil => exact hflat
  | cons made rest ih => exact ih (hflat.change made)

/-! ## Fitting beside the others -/

theorem depthOf_eq_iff {here there : String} : depthOf here = depthOf there ↔
    (Location.segments here.toList).length = (Location.segments there.toList).length :=
  Nat.add_right_cancel_iff

/-- A datanode fits where the topology admits it once it is taken away. -/
theorem admits_remove_iff_fits {topology : Topology} {id location : String} :
    (topology.remove id).Admits location ↔ topology.Fits id location := by
  constructor
  · intro hadmits
    refine ⟨Location.isAbsolute_iff.mp hadmits.absolute, List.length_pos_iff.mpr hadmits.nonempty,
      fun {other there} hother hthere ↦ ?_⟩
    have hleft : (topology.remove id).location? other = some there := by
      rw [location?_remove, if_neg (Ne.symm hother), hthere]
    exact depthOf_eq_iff.mp (hadmits.level hleft)
  · intro hfits
    refine ⟨Location.isAbsolute_iff.mpr hfits.absolute, List.length_pos_iff.mp hfits.segmented,
      fun {other there} hother ↦ depthOf_eq_iff.mpr (hfits.level ?_ (location?_of_remove hother))⟩
    rintro rfl
    simp [location?_remove] at hother

theorem admits_iff_fits_of_absent {topology : Topology} {id : String} (habsent : topology.location? id = none)
    (location : String) : topology.Admits location ↔ topology.Fits id location := by
  rw [← admits_remove_iff_fits, remove_of_location?_eq_none habsent]

theorem exists_update_eq_iff {topology : Topology} {id offered : String} :
    (∃ moved, topology.update id offered = (moved, none)) ↔ (topology.update id offered).2 = none :=
  ⟨fun ⟨_, hmoved⟩ ↦ congrArg Prod.snd hmoved, fun h ↦ ⟨_, Prod.ext rfl h⟩⟩

/-! ## Datanodes above a location -/

/-- A location below a datanode is deeper than the leaves, so that it is refused for its depth all the same. -/
theorem Sound.depth_of_check_underDatanode {topology : Topology} (hsound : topology.Sound) {location leaf : String}
    (h : topology.check location = .error (.underDatanode leaf)) :
    topology.depth ≠ 0 ∧ topology.depth ≠ depthOf location := by
  unfold check at h
  simp only at h
  split at h
  · simp at h
  · split at h
    · next found hfound =>
      have hplaced : topology.location? found.1 = some found.2 :=
        (OrderedMap.get?_eq_some_iff topology.leaves found.1 found.2).mpr (List.mem_of_find?_eq_some hfound)
      have hwithin : Location.isWithin location.toList (leafPath found.1 found.2) = true := by
        simpa using List.find?_some hfound
      have hdeeper := Location.depthOf_lt_of_isWithin_leafPath (hsound.named hplaced) hwithin
      rw [depth_of_location? hsound hplaced]
      exact ⟨Nat.succ_ne_zero _, Nat.ne_of_lt hdeeper⟩
    · split at h <;> simp at h

theorem Sound.depth_of_add_underDatanode {topology : Topology} (hsound : topology.Sound) {id offered leaf : String}
    (h : topology.add id offered = .error (.underDatanode leaf)) :
    topology.depth ≠ 0 ∧ topology.depth ≠ depthOf (meant offered) := by
  cases hplaced : topology.location? id with
  | some existing =>
    simp only [Topology.add, hplaced] at h
    split at h <;> simp at h
  | none =>
    rw [add_of_absent hplaced] at h
    cases hcheck : topology.check (meant offered) with
    | ok _ => simp [hcheck, Except.map] at h
    | error refusal =>
      have hrefusal : refusal = .underDatanode leaf := by simpa [hcheck, Except.map] using h
      exact hsound.depth_of_check_underDatanode (hcheck.trans (congrArg Except.error hrefusal))

theorem Sound.depth_of_update_underDatanode {topology kept : Topology} (hsound : topology.Sound)
    {id offered leaf : String} (h : topology.update id offered = (kept, some (.underDatanode leaf))) :
    (topology.remove id).depth ≠ 0 ∧ (topology.remove id).depth ≠ depthOf (meant offered) := by
  unfold Topology.update at h
  simp only at h
  split at h
  · simp at h
  · split at h
    · simp at h
    · next refusal hadd =>
      have hrefusal : refusal = .underDatanode leaf := by simpa using congrArg Prod.snd h
      have hrefused := (hsound.remove id).depth_of_add_underDatanode (hadd.trans (congrArg Except.error hrefusal))
      rwa [meant_meant] at hrefused

/-! ## Admission -/

theorem Sound.admission {topology : Topology} (hsound : topology.Sound) : topology.Admission where
  update id offered := by
    rw [exists_update_eq_iff, update_snd_eq_none_iff hsound, admits_remove_iff_fits, meant_eq_asked]
  add_absent := fun {id} habsent offered ↦ by
    rw [exists_add_eq_ok_iff hsound habsent, admits_iff_fits_of_absent habsent, meant_eq_asked]
  add_placed := fun {id location} hplaced offered ↦ by
    rw [← meant_eq_asked]
    simp only [Topology.add, hplaced]
    split
    · next hsame => simp [hsame]
    · next hdifferent => simp [hdifferent]
  sole := fun {id} hsole offered habsolute hsegmented ↦ by
    rw [exists_update_eq_iff, update_snd_eq_none_iff hsound, admits_remove_iff_fits]
    refine .inr ⟨habsolute, hsegmented, fun {other there} hother hthere ↦ ?_⟩
    rw [hsole other hother] at hthere
    simp at hthere
  nested_add := hsound.depth_of_add_underDatanode
  nested_update := hsound.depth_of_update_underDatanode

/-- Whatever changes led to a topology, as long as the identifiers that are placed in it have another character than
a slash: a move succeeds exactly when the datanode is at the location already or fits there, a new datanode is placed
exactly where it fits, and a placed one only where it is.  So a sole datanode may move to any depth, and the check
for datanodes above a location refuses nothing that the check of the depth would have let through. -/
theorem admission_after {changes : List TopologyChange}
    (hnamed : ∀ id ∈ (empty.after changes).leaves.keys, ∃ c ∈ id.toList, c ≠ '/') :
    (empty.after changes).Admission := by
  refine ((flat_empty.after changes).sound fun {id location} hid ↦ ?_).admission
  have hcontains : (empty.after changes).leaves.contains id = true := Option.isSome_of_eq_some hid
  exact segments_ne_nil_of_isNamed
    (hnamed id ((OrderedMap.contains_iff_mem_keys (empty.after changes).leaves id).mp hcontains))

/-- A datanode named by a slash has come and gone, and the sole one that is left moves below its own path, where
redundant slashes count for nothing. -/
theorem admission_after_departure :
    let changes : List TopologyChange := [.add "/" "/rack0", .update "dn1" "//rack1/", .remove "/"]
    let reached := empty.after changes
    (∀ id ∈ reached.leaves.keys, ∃ c ∈ id.toList, c ≠ '/') ∧ reached.Admission ∧
      reached.location? "dn1" = some "//rack1/" ∧
      ∃ moved, reached.update "dn1" "//rack1//dn1/" = (moved, none) := by
  intro changes reached
  have hnamed : ∀ id ∈ reached.leaves.keys, ∃ c ∈ id.toList, c ≠ '/' := by
    have hkeys : reached.leaves.keys = ["dn1"] := by decide +kernel
    rw [hkeys, List.forall_mem_singleton]
    exact ⟨'d', by decide, by decide⟩
  have hadmission : reached.Admission := admission_after hnamed
  have hsole : ∀ other, other ≠ "dn1" → reached.location? other = none := by
    intro other hother
    have hleaves : reached.leaves.entries = [("dn1", "//rack1/")] := by decide +kernel
    rw [location?, OrderedMap.get?, hleaves]
    simp [Association.find?, Ne.symm hother]
  refine ⟨hnamed, hadmission, by decide +kernel, hadmission.sole hsole _ ⟨_, rfl⟩ ?_⟩
  decide +kernel

end Topology

end ClusterMembership
