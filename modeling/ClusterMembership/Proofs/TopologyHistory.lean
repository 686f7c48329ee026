import ClusterMembership.Proofs.Topology

/-!
# Histories of a topology

Datanodes are placed, moved and taken away, and all placements may be dropped at once.  Whatever the order, the
leaves are level and apart: every location is an absolute path, all locations have the same number of segments, and
none lies at or below the path of another leaf.  The last follows from the second, since the path of a leaf has
more segments than its location; so nothing of it has to be carried through a history but the soundness of the
topology.  A change that is refused changes nothing that the topology shows.
-/

namespace ClusterMembership

inductive TopologyChange where
  | add (id offered : String)
  | update (id offered : String)
  | remove (id : String)
  | clear
  deriving DecidableEq

/-- Whether the identifier in a change, if there is one, has another character than a slash. -/
def TopologyChange.IsNamed : TopologyChange → Prop
  | .add id _ | .update id _ | .remove id => ∃ c ∈ id.toList, c ≠ '/'
  | .clear => True

namespace Topology

def change (topology : Topology) : TopologyChange → Topology × Option Refusal
  | .add id offered =>
    match topology.add id offered with
    | .ok placed => (placed, none)
    | .error refusal => (topology, some refusal)
  | .update id offered => topology.update id offered
  | .remove id => (topology.remove id, none)
  | .clear => (empty, none)

def after (topology : Topology) (changes : List TopologyChange) : Topology :=
  changes.foldl (fun reached made ↦ (reached.change made).1) topology

/-- The leaves lie at absolute locations with one number of segments, which gives the depth, and none lies at the
path of another or below it. -/
structure Level (topology : Topology) : Prop where
  absolute : ∀ {id location}, topology.location? id = some location → ∃ rest, location.toList = '/' :: rest
  segmented : ∀ {id location}, topology.location? id = some location →
    1 ≤ (Location.segments location.toList).length
  level : ∀ {id other here there}, topology.location? id = some here → topology.location? other = some there →
    (Location.segments here.toList).length = (Location.segments there.toList).length
  depth : ∀ {id location}, topology.location? id = some location →
    topology.depth = (Location.segments location.toList).length + 1
  depth_empty : topology.size = 0 → topology.depth = 0
  apart : ∀ {id other here there}, topology.location? id = some here → topology.location? other = some there →
    here.toList ≠ leafPath other there ∧ ∀ below, here.toList ≠ leafPath other there ++ '/' :: below

/-- Two topologies that show the same size, the same depth and the same place of every datanode. -/
structure Unmoved (before after : Topology) : Prop where
  size : after.size = before.size
  depth : after.depth = before.depth
  location? : ∀ id, after.location? id = before.location? id

/-! ## What a sound topology shows -/

/-- No leaf lies at the path of another or below it, since it would lie deeper than the other. -/
theorem Sound.apart {topology : Topology} (hsound : topology.Sound) {id other here there : String}
    (hhere : topology.location? id = some here) (hthere : topology.location? other = some there) :
    here.toList ≠ leafPath other there ∧ ∀ below, here.toList ≠ leafPath other there ++ '/' :: below := by
  have hlevel := hsound.level hhere hthere
  have hnot : Location.isWithin here.toList (leafPath other there) ≠ true := by
    intro hwithin
    have hdeeper := Location.depthOf_lt_of_isWithin_leafPath (hsound.named hthere) hwithin
    omega
  constructor
  · intro hat
    apply hnot
    simp [Location.isWithin, hat]
  · intro below hbelow
    apply hnot
    have hprefix : (leafPath other there ++ ['/']).isPrefixOf here.toList = true := by
      rw [List.isPrefixOf_iff_prefix, hbelow]
      exact ⟨below, by simp⟩
    simp [Location.isWithin, hprefix]

theorem location?_eq_none_of_size {topology : Topology} (h : topology.size = 0) (id : String) :
    topology.location? id = none := by
  have hentries : topology.leaves.entries = [] := List.length_eq_zero_iff.mp h
  rw [location?, OrderedMap.get?, hentries]
  rfl

theorem Sound.levelled {topology : Topology} (hsound : topology.Sound) : topology.Level where
  absolute := fun hid ↦ Location.isAbsolute_iff.mp (hsound.absolute hid).1
  segmented := fun hid ↦ List.length_pos_iff.mpr (hsound.absolute hid).2
  level := fun hhere hthere ↦ Nat.succ.inj (hsound.level hhere hthere)
  depth := fun hid ↦ depth_of_location? hsound hid
  depth_empty := fun hsize ↦ by
    apply Decidable.byContradiction
    intro hdepth
    obtain ⟨id, location, hid⟩ := exists_location?_of_depth_ne_zero hdepth
    rw [location?_eq_none_of_size hsize] at hid
    simp at hid
  apart := fun hhere hthere ↦ hsound.apart hhere hthere

/-- Size and depth of a sound topology are determined by the places of its datanodes. -/
theorem unmoved_of_location?_eq {before after : Topology} (hsound : before.Sound)
    (h : ∀ id, after.location? id = before.location? id) : before.Unmoved after where
  size := OrderedMap.size_eq_of_contains_iff fun id ↦ by
    unfold location? at h
    rw [OrderedMap.contains, OrderedMap.contains, h]
  depth := by
    by_cases hdepth : before.depth = 0
    · rw [hdepth]
      apply Decidable.byContradiction
      intro hafter
      obtain ⟨id, location, hid⟩ := exists_location?_of_depth_ne_zero hafter
      rw [h] at hid
      have hbefore := depth_of_location? hsound hid
      exact absurd (hbefore.symm.trans hdepth) (Nat.succ_ne_zero _)
    · obtain ⟨id, location, hid⟩ := exists_location?_of_depth_ne_zero hdepth
      rw [depth_of_location? hsound hid]
      exact depth_of_location? (hsound.of_location?_eq h) ((h id).trans hid)
  location? := h

/-! ## Changes -/

theorem segments_ne_nil_of_isNamed {id : String} (h : ∃ c ∈ id.toList, c ≠ '/') :
    Location.segments id.toList ≠ [] := by
  obtain ⟨c, hmem, hc⟩ := h
  exact Location.segments_ne_nil_of_mem hmem hc

theorem Sound.change {topology : Topology} (hsound : topology.Sound) {made : TopologyChange}
    (hnamed : made.IsNamed) : (topology.change made).1.Sound := by
  cases made with
  | add id offered =>
    simp only [Topology.change]
    split
    · next placed hadded => exact hsound.add (segments_ne_nil_of_isNamed hnamed) hadded
    · exact hsound
  | update id offered => exact hsound.update (segments_ne_nil_of_isNamed hnamed) offered
  | remove id => exact hsound.remove id
  | clear => exact sound_empty

theorem Sound.after {topology : Topology} (hsound : topology.Sound) {changes : List TopologyChange}
    (hnamed : ∀ made ∈ changes, made.IsNamed) : (topology.after changes).Sound := by
  unfold Topology.after
  induction changes generalizing topology with
  | nil => exact hsound
  | cons made rest ih =>
    exact ih (hsound.change (hnamed made List.mem_cons_self)) fun other hother ↦
      hnamed other (List.mem_cons_of_mem _ hother)

/-- A refused change leaves every datanode where it was, though it may change their order. -/
theorem location?_change_of_refused {topology kept : Topology} {made : TopologyChange} {refusal : Refusal}
    (h : topology.change made = (kept, some refusal)) (id : String) :
    kept.location? id = topology.location? id := by
  cases made with
  | add added offered =>
    unfold Topology.change at h
    simp only at h
    split at h
    · simp at h
    · have hkept : topology = kept := congrArg Prod.fst h
      rw [hkept]
  | update moved offered => exact location?_update_of_refused h id
  | remove removed => simp [Topology.change] at h
  | clear => simp [Topology.change] at h

/-- In every history of a topology that starts without datanodes, with any locations and any identifiers that have
another character than a slash, the leaves are level and apart, and a change that is refused then leaves the size,
the depth and the place of every datanode as they were. -/
theorem level_after {changes : List TopologyChange} (hnamed : ∀ made ∈ changes, made.IsNamed) :
    (empty.after changes).Level ∧
      ∀ made kept refusal, (empty.after changes).change made = (kept, some refusal) →
        (empty.after changes).Unmoved kept := by
  have hsound : (empty.after changes).Sound := sound_empty.after hnamed
  refine ⟨hsound.levelled, fun made kept refusal hrefused ↦ ?_⟩
  exact unmoved_of_location?_eq hsound (location?_change_of_refused hrefused)

/-- One of two datanodes may not go to another depth and stays where it was. -/
theorem level_after_refused_move :
    let changes : List TopologyChange := [.add "dn1" "/rack1", .add "dn2" "/rack2/", .update "dn1" "/rack2/dn2"]
    let reached := empty.after changes
    (∀ made ∈ changes, made.IsNamed) ∧ reached.Level ∧ reached.location? "dn1" = some "/rack1" ∧
      reached.change (.update "dn1" "/rack2/dn2") =
        ((reached.change (.update "dn1" "/rack2/dn2")).1, some (.wrongDepth 2 3)) ∧
      reached.Unmoved (reached.change (.update "dn1" "/rack2/dn2")).1 := by
  intro changes reached
  have hnamed : ∀ made ∈ changes, made.IsNamed := by
    simp only [changes, List.forall_mem_cons, TopologyChange.IsNamed]
    exact ⟨⟨'d', by decide, by decide⟩, ⟨'d', by decide, by decide⟩, ⟨'d', by decide, by decide⟩, by simp⟩
  have hrefused : reached.change (.update "dn1" "/rack2/dn2") =
      ((reached.change (.update "dn1" "/rack2/dn2")).1, some (.wrongDepth 2 3)) := by decide +kernel
  obtain ⟨hlevel, hatomic⟩ := level_after hnamed
  exact ⟨hnamed, hlevel, by decide +kernel, hrefused, hatomic _ _ _ hrefused⟩

end Topology

end ClusterMembership
