import ClusterMembership.Proofs.Location

/-!
# Topologies of one depth

In a flat topology all leaves lie at absolute locations of one depth; in a sound one each is named, besides, by
an identifier that is a segment.  Such a topology admits a location exactly when the location is an absolute path of
the depth of the other leaves: the depth alone decides, since nothing at that depth can lie under a
leaf.  Placing, moving and removing datanodes keeps a topology flat and sound, and what a topology shows is
described by one look-up equation for each of the three.
-/

namespace ClusterMembership.Topology

/-! ## Flat topologies -/

/-- All leaves lie at absolute locations of one depth, whatever they are named. -/
structure Flat (topology : Topology) : Prop where
  absolute : ∀ {id location}, topology.location? id = some location →
    Location.isAbsolute location.toList = true ∧ Location.segments location.toList ≠ []
  level : ∀ {a b here there}, topology.location? a = some here → topology.location? b = some there →
    depthOf here = depthOf there

/-- A location that a new leaf may take: an absolute path at the depth of all leaves. -/
structure Admits (topology : Topology) (location : String) : Prop where
  absolute : Location.isAbsolute location.toList = true
  nonempty : Location.segments location.toList ≠ []
  level : ∀ {id other}, topology.location? id = some other → depthOf other = depthOf location

theorem flat_empty : empty.Flat where
  absolute h := by simp at h
  level h := by simp at h

/-- Flatness depends only on what the topology shows, and leaves may be missing. -/
theorem Flat.of_location? {topology other : Topology} (hflat : topology.Flat)
    (h : ∀ {id location}, other.location? id = some location → topology.location? id = some location) :
    other.Flat where
  absolute hid := hflat.absolute (h hid)
  level ha hb := hflat.level (h ha) (h hb)

theorem location?_of_remove {topology : Topology} {removed id location : String}
    (h : (topology.remove removed).location? id = some location) : topology.location? id = some location := by
  rw [location?_remove] at h
  split at h
  · simp at h
  · exact h

theorem remove_of_location?_eq_none {topology : Topology} {id : String} (h : topology.location? id = none) :
    topology.remove id = topology := by
  unfold remove
  rw [OrderedMap.erase_of_get?_eq_none h]

theorem Flat.remove {topology : Topology} (hflat : topology.Flat) (removed : String) :
    (topology.remove removed).Flat :=
  hflat.of_location? location?_of_remove

/-! ## The depth of the leaves -/

theorem Flat.depth_eq {topology : Topology} (hflat : topology.Flat) {id location : String}
    (h : topology.location? id = some location) : topology.depth = depthOf location := by
  have hmem : location ∈ topology.leaves.values :=
    (OrderedMap.mem_values_iff topology.leaves location).mpr ⟨id, h⟩
  obtain ⟨first, rest, hvalues⟩ := List.exists_cons_of_ne_nil (List.ne_nil_of_mem hmem)
  have hfirst : first ∈ topology.leaves.values := by
    rw [hvalues]
    exact List.mem_cons_self
  obtain ⟨other, hother⟩ := (OrderedMap.mem_values_iff topology.leaves first).mp hfirst
  unfold depth
  rw [hvalues, List.head?_cons, Option.map_some, Option.getD_some]
  exact hflat.level hother h

theorem exists_location?_of_depth_ne_zero {topology : Topology} (h : topology.depth ≠ 0) :
    ∃ id location, topology.location? id = some location := by
  unfold depth at h
  cases hvalues : topology.leaves.values with
  | nil => simp [hvalues] at h
  | cons first rest =>
    have hfirst : first ∈ topology.leaves.values := by
      rw [hvalues]
      exact List.mem_cons_self
    obtain ⟨id, hid⟩ := (OrderedMap.mem_values_iff topology.leaves first).mp hfirst
    exact ⟨id, first, hid⟩

/-! ## Placing in a flat topology -/

/-- A location that passes the check is an absolute path at the depth of the leaves. -/
theorem Flat.admits_of_check {topology : Topology} {location : String} (hflat : topology.Flat)
    (h : topology.check location = .ok ()) : topology.Admits location := by
  have hpath : ¬((!Location.isAbsolute location.toList ||
      (Location.segments location.toList).isEmpty) = true) := by
    intro hpath
    simp only [check, if_pos hpath, reduceCtorEq] at h
  have hdepth : ¬(topology.depth ≠ 0 ∧ topology.depth ≠ depthOf location) := by
    intro hdepth
    simp only [check, if_neg hpath, if_pos hdepth] at h
    split at h <;> simp at h
  simp only [Bool.or_eq_true, Bool.not_eq_true', List.isEmpty_iff, not_or,
    Bool.not_eq_false] at hpath
  refine ⟨hpath.1, hpath.2, fun {id other} hother ↦ ?_⟩
  have hleaves := hflat.depth_eq hother
  have hpositive : 0 < depthOf other := Nat.succ_pos _
  apply Decidable.byContradiction
  intro hne
  exact hdepth ⟨by omega, by omega⟩

theorem Flat.add {topology placed : Topology} (hflat : topology.Flat) {id offered : String}
    (h : topology.add id offered = .ok placed) : placed.Flat := by
  have hlocation := location?_add h
  cases hprevious : topology.location? id with
  | some existing =>
    -- A placed datanode may only be placed where it is, so nothing changes.
    refine hflat.of_location? fun {other location} hother ↦ ?_
    rw [hlocation] at hother
    split at hother
    · next hsame =>
      simp only [Topology.add, hprevious] at h
      split at h
      · next hexisting => rw [← hsame, hprevious, hexisting, hother]
      · simp at h
    · exact hother
  | none =>
    rw [add_of_absent hprevious] at h
    have hcheck : topology.check (meant offered) = .ok () := by
      cases hcheck : topology.check (meant offered) with
      | ok _ => rfl
      | error refusal => simp [hcheck, Except.map] at h
    have hadmits := hflat.admits_of_check hcheck
    have hcases {other location : String} (hother : placed.location? other = some location) :
        location = meant offered ∨ topology.location? other = some location := by
      rw [hlocation] at hother
      split at hother
      · exact .inl (Option.some.inj hother).symm
      · exact .inr hother
    refine ⟨fun {other location} hother ↦ ?_, fun {a b here there} ha hb ↦ ?_⟩
    · rcases hcases hother with rfl | hstays
      · exact ⟨hadmits.absolute, hadmits.nonempty⟩
      · exact hflat.absolute hstays
    · rcases hcases ha with rfl | ha <;> rcases hcases hb with rfl | hb
      · rfl
      · exact (hadmits.level hb).symm
      · exact hadmits.level ha
      · exact hflat.level ha hb

/-! ## Sound topologies -/

/-- All leaves lie at absolute locations of one depth and are named by segments. -/
structure Sound (topology : Topology) : Prop where
  absolute : ∀ {id location}, topology.location? id = some location →
    Location.isAbsolute location.toList = true ∧ Location.segments location.toList ≠ []
  level : ∀ {a b here there}, topology.location? a = some here → topology.location? b = some there →
    depthOf here = depthOf there
  named : ∀ {id location}, topology.location? id = some location → Location.segments id.toList ≠ []

theorem Sound.flat {topology : Topology} (hsound : topology.Sound) : topology.Flat :=
  ⟨hsound.absolute, hsound.level⟩

/-- A flat topology is sound as soon as its leaves are named by segments. -/
theorem Flat.sound {topology : Topology} (hflat : topology.Flat)
    (hnamed : ∀ {id location}, topology.location? id = some location → Location.segments id.toList ≠ []) :
    topology.Sound :=
  ⟨hflat.absolute, hflat.level, hnamed⟩

theorem sound_empty : empty.Sound :=
  flat_empty.sound fun h ↦ by simp at h

/-- Soundness depends only on what the topology shows. -/
theorem Sound.of_location?_eq {topology other : Topology} (hsound : topology.Sound)
    (h : ∀ id, other.location? id = topology.location? id) : other.Sound :=
  (hsound.flat.of_location? fun hid ↦ (h _).symm.trans hid).sound fun hid ↦ hsound.named ((h _).symm.trans hid)

theorem Sound.remove {topology : Topology} (hsound : topology.Sound) (removed : String) :
    (topology.remove removed).Sound :=
  (hsound.flat.remove removed).sound fun hid ↦ hsound.named (location?_of_remove hid)

theorem depth_of_location? {topology : Topology} (hsound : topology.Sound) {id location : String}
    (h : topology.location? id = some location) : topology.depth = depthOf location :=
  hsound.flat.depth_eq h

/-! ## Admission -/

/-- No leaf of a topology that admits a location has that location below it. -/
theorem find?_isWithin_eq_none {topology : Topology} {location : String} (hsound : topology.Sound)
    (hadmits : topology.Admits location) :
    (topology.leaves.entries.find? fun leaf ↦
      Location.isWithin location.toList (leafPath leaf.1 leaf.2)) = none := by
  rw [List.find?_eq_none]
  intro leaf hleaf hwithin
  have hplaced : topology.location? leaf.1 = some leaf.2 :=
    (OrderedMap.get?_eq_some_iff topology.leaves leaf.1 leaf.2).mpr hleaf
  have hdeeper := Location.depthOf_lt_of_isWithin_leafPath (hsound.named hplaced) hwithin
  have hlevel := hadmits.level hplaced
  omega

/-- The check of a location asks for an absolute path at the depth of the leaves and for nothing else. -/
theorem check_eq_ok_iff {topology : Topology} (hsound : topology.Sound) (location : String) :
    topology.check location = .ok () ↔ topology.Admits location := by
  constructor
  · exact hsound.flat.admits_of_check
  · intro hadmits
    have hpath : ¬((!Location.isAbsolute location.toList ||
        (Location.segments location.toList).isEmpty) = true) := by
      simp [hadmits.absolute, hadmits.nonempty]
    have hdepth : ¬(topology.depth ≠ 0 ∧ topology.depth ≠ depthOf location) := by
      rintro ⟨hzero, hne⟩
      obtain ⟨id, other, hother⟩ := exists_location?_of_depth_ne_zero hzero
      exact hne ((depth_of_location? hsound hother).trans (hadmits.level hother))
    unfold check
    simp only [if_neg hpath, find?_isWithin_eq_none hsound hadmits, if_neg hdepth]

theorem meant_meant (offered : String) : meant (meant offered) = meant offered := by
  unfold meant
  by_cases h : offered = ""
  · rw [if_pos h, if_neg (by decide)]
  · rw [if_neg h, if_neg h]

/-! ## Placing -/

/-- A datanode that is not placed can be placed exactly where the topology admits it. -/
theorem exists_add_eq_ok_iff {topology : Topology} (hsound : topology.Sound) {id : String}
    (habsent : topology.location? id = none) (offered : String) :
    (∃ placed, topology.add id offered = .ok placed) ↔ topology.Admits (meant offered) := by
  rw [← check_eq_ok_iff hsound, add_of_absent habsent]
  cases topology.check (meant offered) <;> simp [Except.map]

theorem Sound.add {topology placed : Topology} (hsound : topology.Sound) {id offered : String}
    (hid : Location.segments id.toList ≠ []) (h : topology.add id offered = .ok placed) :
    placed.Sound := by
  refine (hsound.flat.add h).sound fun {other location} hother ↦ ?_
  rw [location?_add h] at hother
  split at hother
  · next hsame => exact hsame ▸ hid
  · exact hsound.named hother

/-! ## Moving -/

theorem location?_update_of_placed {topology moved : Topology} {id offered : String}
    (h : topology.update id offered = (moved, none)) (other : String) :
    moved.location? other =
      if id = other then some (meant offered) else topology.location? other := by
  unfold update at h
  simp only at h
  split at h
  · next hprevious =>
    have hmoved : topology = moved := congrArg Prod.fst h
    by_cases hother : id = other
    · rw [if_pos hother, ← hother, ← hmoved, hprevious]
    · rw [if_neg hother, hmoved]
  · split at h
    · next placed hadd =>
      have hmoved : placed = moved := congrArg Prod.fst h
      rw [← hmoved, location?_add hadd, meant_meant, location?_remove]
      split <;> rfl
    · simp at h

/-- A refused move leaves every datanode where it was. -/
theorem location?_update_of_refused {topology kept : Topology} {id offered : String} {refusal : Refusal}
    (h : topology.update id offered = (kept, some refusal)) (other : String) :
    kept.location? other = topology.location? other := by
  unfold update at h
  simp only at h
  split at h
  · simp at h
  · split at h
    · simp at h
    · have hkept : ⟨(topology.remove id).leaves.restore id (topology.location? id)⟩ = kept :=
        congrArg Prod.fst h
      rw [← hkept]
      have hrestore := OrderedMap.get?_restore (topology.remove id).leaves id other
        (topology.location? id)
      have hremove := location?_remove topology id other
      unfold location? at hremove hrestore ⊢
      rw [hrestore, hremove]
      split
      · next hother => rw [hother]
      · rfl

theorem Flat.update {topology : Topology} (hflat : topology.Flat) (id offered : String) :
    (topology.update id offered).1.Flat := by
  cases h : topology.update id offered with
  | mk moved refusal =>
    cases refusal with
    | some refusal =>
      exact hflat.of_location? fun {other location} hother ↦ (location?_update_of_refused h other).symm.trans hother
    | none =>
      unfold Topology.update at h
      simp only at h
      split at h
      · exact congrArg Prod.fst h ▸ hflat
      · split at h
        · next placed hadd => exact congrArg Prod.fst h ▸ (hflat.remove id).add hadd
        · simp at h

theorem Sound.update {topology : Topology} (hsound : topology.Sound) {id : String}
    (hid : Location.segments id.toList ≠ []) (offered : String) :
    (topology.update id offered).1.Sound := by
  refine (hsound.flat.update id offered).sound fun {other location} hother ↦ ?_
  cases h : topology.update id offered with
  | mk moved refusal =>
    rw [h] at hother
    cases refusal with
    | some refusal => exact hsound.named ((location?_update_of_refused h other).symm.trans hother)
    | none =>
      rw [location?_update_of_placed h] at hother
      split at hother
      · next hsame => exact hsame ▸ hid
      · exact hsound.named hother

/-- A datanode can be moved to where it is, and wherever the other leaves admit it. -/
theorem update_snd_eq_none_iff {topology : Topology} (hsound : topology.Sound) (id offered : String) :
    (topology.update id offered).2 = none ↔
      topology.location? id = some (meant offered) ∨ (topology.remove id).Admits (meant offered) := by
  have habsent : (topology.remove id).location? id = none := by
    rw [location?_remove, if_pos rfl]
  have hadd := exists_add_eq_ok_iff (hsound.remove id) habsent (meant offered)
  rw [meant_meant] at hadd
  rw [← hadd]
  unfold update
  simp only
  by_cases hprevious : topology.location? id = some (meant offered)
  · simp [hprevious]
  · rw [if_neg hprevious]
    cases h : (topology.remove id).add id (meant offered) <;> simp [hprevious]

/-- A datanode gets to a well-formed location exactly when all others lie at its depth. -/
theorem location?_update_eq_iff {topology : Topology} (hsound : topology.Sound) {id location : String}
    (hformed : Location.isWellFormed location.toList = true) :
    (topology.update id location).1.location? id = some location ↔
      ∀ {other there}, other ≠ id → topology.location? other = some there → depthOf there = depthOf location := by
  have hmeant := Location.meant_of_isWellFormed hformed
  have hadmitted := update_snd_eq_none_iff hsound id location
  rw [hmeant] at hadmitted
  -- The others are those that are left when the datanode is taken away.
  have hremoved {other there : String} : (topology.remove id).location? other = some there ↔
      other ≠ id ∧ topology.location? other = some there := by
    rw [location?_remove]
    split
    · next hsame => simp [hsame]
    · next hsame => exact ⟨fun hother ↦ ⟨fun heq ↦ hsame heq.symm, hother⟩, And.right⟩
  cases hupdate : topology.update id location with
  | mk moved refusal =>
    rw [hupdate] at hadmitted
    cases refusal with
    | none =>
      have hmoved := location?_update_of_placed hupdate id
      rw [if_pos rfl, hmeant] at hmoved
      refine ⟨fun _ {other there} hother hthere ↦ ?_, fun _ ↦ hmoved⟩
      rcases hadmitted.mp rfl with hsame | hadmits
      · exact hsound.level hthere hsame
      · exact hadmits.level (hremoved.mpr ⟨hother, hthere⟩)
    | some refusal =>
      have hrefused : ¬ (topology.location? id = some location ∨ (topology.remove id).Admits location) :=
        fun h ↦ by simpa using hadmitted.mpr h
      constructor
      · intro hmoved
        rw [location?_update_of_refused hupdate] at hmoved
        exact absurd (.inl hmoved) hrefused
      · intro hlevel
        refine absurd (.inr ⟨Location.isAbsolute_of_isWellFormed hformed,
          Location.segments_ne_nil_of_isWellFormed hformed, fun {other there} hother ↦ ?_⟩) hrefused
        obtain ⟨hdifferent, hthere⟩ := hremoved.mp hother
        exact hlevel hdifferent hthere

/-- When a datanode is to be moved, no other changes its place. -/
theorem location?_update_of_ne (topology : Topology) {id other : String} (hother : id ≠ other)
    (offered : String) : (topology.update id offered).1.location? other = topology.location? other := by
  cases hupdate : topology.update id offered with
  | mk moved refusal =>
    cases refusal with
    | none => exact (location?_update_of_placed hupdate other).trans (if_neg hother)
    | some refusal => exact location?_update_of_refused hupdate other

/-- A placed datanode that is to be moved stays placed. -/
theorem isSome_location?_update {topology : Topology} {id : String}
    (hplaced : (topology.location? id).isSome = true) (offered : String) :
    ((topology.update id offered).1.location? id).isSome = true := by
  cases hupdate : topology.update id offered with
  | mk moved refusal =>
    cases refusal with
    | none => rw [location?_update_of_placed hupdate, if_pos rfl]; rfl
    | some refusal => exact (location?_update_of_refused hupdate id).symm ▸ hplaced

end ClusterMembership.Topology
