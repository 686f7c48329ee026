import Mathlib.Data.List.Dedup
import ClusterMembership.Proofs.LocationGrammar
import ClusterMembership.Proofs.TextOrder

/-!
# The leaves of a scope

The topology compares locations with a scope as texts, by equality and by what they begin with.  Where all locations
were accepted, the comparison is one of segments: a location lies within a scope exactly when its segments begin with
those of the scope.  The leaves of a scope are thus the leaves of a subtree.  They are parted into those placed at the
scope itself and those of the scopes one segment deeper, no two of which share a leaf.
-/

namespace ClusterMembership

namespace Location

/-- The root, or a text that is accepted as a location. -/
def IsScope (scope : String) : Prop := scope = "/" ∨ IsAccepted scope

/-- An accepted location one segment below a scope. -/
structure IsChildOf (scope child : String) : Prop where
  accepted : IsAccepted child
  deeper : ∃ name, segments child.toList = segments scope.toList ++ [name]

def below (scope : String) (name : List Char) : String := String.ofList (join (segments scope.toList ++ [name]))

/-- The scope one segment deeper on the way to a location, unless the location has no further segment. -/
def childToward (scope location : String) : Option String :=
  (segments location.toList)[(segments scope.toList).length]?.map (below scope)

theorem segments_root : segments "/".toList = [] := by decide

/-! ## Prefixes of segments -/

/-- Among accepted locations, lying within another is having its segments in front. -/
theorem isWithin_iff_prefix {location scope : String} (hlocation : IsAccepted location) (hscope : IsAccepted scope) :
    isWithin location.toList scope.toList = true ↔ segments scope.toList <+: segments location.toList := by
  constructor
  · intro hwithin
    obtain ⟨rest, hrest⟩ := segments_of_isWithin hwithin
    exact ⟨rest, hrest.symm⟩
  · rintro ⟨rest, hrest⟩
    have hpath : location.toList = scope.toList ++ join rest := by
      calc
        location.toList = join (segments location.toList) := hlocation.spells.joined.symm
        _ = join (segments scope.toList) ++ join rest := by rw [← hrest, join_append]
        _ = scope.toList ++ join rest := by rw [hscope.spells.joined]
    unfold isWithin
    cases rest with
    | nil => simp [hpath]
    | cons name rest => simp [hpath]

theorem covers_iff_prefix {location scope : String} (hlocation : IsAccepted location) (hscope : IsScope scope) :
    (scope = "/" ∨ isWithin location.toList scope.toList = true) ↔
      segments scope.toList <+: segments location.toList := by
  rcases hscope with rfl | hscope
  · rw [segments_root]
    exact iff_of_true (.inl rfl) List.nil_prefix
  · have hnotRoot : scope ≠ "/" := by
      rintro rfl
      exact absurd hscope (by decide)
    rw [← isWithin_iff_prefix hlocation hscope]
    simp [hnotRoot]

/-! ## Scopes one segment deeper -/

theorem IsScope.isName {scope : String} (h : IsScope scope) : ∀ name ∈ segments scope.toList, IsName name := by
  rcases h with rfl | haccepted
  · decide
  · exact haccepted.spells.named

theorem IsScope.spells_below {scope : String} (hscope : IsScope scope) {name : List Char} (hname : IsName name) :
    Spells (segments scope.toList ++ [name]) (below scope name).toList where
  nonempty := by simp
  named := List.forall_mem_append.mpr ⟨hscope.isName, List.forall_mem_singleton.mpr hname⟩
  joined := by rw [below, String.toList_ofList]

theorem IsScope.isChildOf_below {scope : String} (hscope : IsScope scope) {name : List Char} (hname : IsName name) :
    IsChildOf scope (below scope name) where
  accepted := (isAccepted_iff_exists_spells _).mpr ⟨_, hscope.spells_below hname⟩
  deeper := ⟨name, (hscope.spells_below hname).segments_eq⟩

/-- A child scope is the text with its last segment below the scope. -/
theorem IsChildOf.eq_below {scope child : String} (hchild : IsChildOf scope child) {name : List Char}
    (hname : segments child.toList = segments scope.toList ++ [name]) : child = below scope name := by
  apply String.toList_inj.mp
  calc
    child.toList = join (segments child.toList) := hchild.accepted.spells.joined.symm
    _ = (below scope name).toList := by rw [hname, below, String.toList_ofList]

theorem IsScope.eq_of_segments_eq {scope location : String} (hscope : IsScope scope) (hlocation : IsAccepted location)
    (h : segments location.toList = segments scope.toList) : location = scope := by
  rcases hscope with rfl | hscope
  · exact absurd (h.trans segments_root) hlocation.spells.nonempty
  · exact hlocation.eq_of_segments_eq hscope h

theorem childToward_eq {scope location : String} {rest : List (List Char)}
    (h : segments location.toList = segments scope.toList ++ rest) :
    childToward scope location = rest.head?.map (below scope) := by
  unfold childToward
  rw [h, List.getElem?_append_right (Nat.le_refl _), Nat.sub_self, List.head?_eq_getElem?]

end Location

namespace Topology

open Location

def placedAt (topology : Topology) (location : String) : List String :=
  (topology.leaves.entries.filter fun leaf ↦ leaf.2 = location).map Prod.fst

/-- The scopes one segment below a scope that have leaves. -/
def childScopes (topology : Topology) (scope : String) : List String :=
  ((topology.leavesIn scope).filterMap fun id ↦ (topology.location? id).bind (childToward scope)).dedup

/-- All locations were accepted. -/
def IsLocated (topology : Topology) : Prop :=
  ∀ {id location}, topology.location? id = some location → IsAccepted location

/-- What the leaves of a scope are: the datanodes whose location has the segments of the scope in front, each once and
in ascending order; and how they are parted into those placed there and those of the scopes one segment deeper. -/
structure IsListed (topology : Topology) (scope : String) : Prop where
  mem : ∀ id, id ∈ topology.leavesIn scope ↔
    ∃ location, topology.location? id = some location ∧ segments scope.toList <+: segments location.toList
  root : scope = "/" → ∀ id, id ∈ topology.leavesIn scope ↔ topology.contains id = true
  ascending : (topology.leavesIn scope).Pairwise Text.Before
  nodup : (topology.leavesIn scope).Nodup
  parted : (topology.leavesIn scope).Perm
    (topology.placedAt scope ++ (topology.childScopes scope).flatMap topology.leavesIn)
  children : ∀ child, child ∈ topology.childScopes scope ↔ IsChildOf scope child ∧ topology.leavesIn child ≠ []
  distinct : (topology.childScopes scope).Nodup
  disjoint : ∀ {child other}, IsChildOf scope child → IsChildOf scope other → child ≠ other →
    (topology.leavesIn child).Disjoint (topology.leavesIn other)

/-! ## Members -/

theorem mem_placedAt_iff (topology : Topology) (id location : String) :
    id ∈ topology.placedAt location ↔ topology.location? id = some location := by
  unfold placedAt location?
  rw [OrderedMap.get?_eq_some_iff]
  simp

theorem nodup_placedAt (topology : Topology) (location : String) : (topology.placedAt location).Nodup :=
  topology.leaves.distinct.sublist ((List.filter_sublist).map Prod.fst)

theorem mem_leavesIn_iff (topology : Topology) (id scope : String) :
    id ∈ topology.leavesIn scope ↔ ∃ location, topology.location? id = some location ∧
      (scope = "/" ∨ isWithin location.toList scope.toList = true) := by
  unfold leavesIn location? Text.sorted
  simp [List.mem_mergeSort, OrderedMap.get?_eq_some_iff]

theorem pairwise_before_leavesIn (topology : Topology) (scope : String) :
    (topology.leavesIn scope).Pairwise Text.Before := by
  unfold leavesIn Text.sorted
  apply @pairwise_before_mergeSort String id
  rw [List.map_id]
  exact topology.leaves.distinct.sublist ((List.filter_sublist).map Prod.fst)

theorem nodup_leavesIn (topology : Topology) (scope : String) : (topology.leavesIn scope).Nodup :=
  (topology.pairwise_before_leavesIn scope).imp fun hbefore ↦ ((Text.before_iff _ _).mp hbefore).2

section Located

variable {topology : Topology} (hlocated : topology.IsLocated) {scope : String} (hscope : IsScope scope)

include hlocated hscope

theorem IsLocated.mem_leavesIn_iff_prefix (id : String) :
    id ∈ topology.leavesIn scope ↔
      ∃ location, topology.location? id = some location ∧ segments scope.toList <+: segments location.toList := by
  rw [mem_leavesIn_iff]
  exact exists_congr fun location ↦ and_congr_right fun hid ↦ covers_iff_prefix (hlocated hid) hscope

/-! ## One segment deeper -/

/-- A datanode placed deeper than a scope is a leaf of the child scope that its next segment names. -/
theorem IsLocated.mem_leavesIn_below {id location : String} (hlocation : topology.location? id = some location)
    {name : List Char} {more : List (List Char)}
    (hsegments : segments location.toList = segments scope.toList ++ name :: more) :
    IsChildOf scope (below scope name) ∧ id ∈ topology.leavesIn (below scope name) := by
  have hname : IsName name := (hlocated hlocation).spells.named name (by simp [hsegments])
  have hchild := hscope.isChildOf_below hname
  refine ⟨hchild, (hlocated.mem_leavesIn_iff_prefix (.inr hchild.accepted) id).mpr ⟨location, hlocation, more, ?_⟩⟩
  rw [(hscope.spells_below hname).segments_eq, hsegments, List.append_assoc, List.singleton_append]

omit hscope in
/-- A leaf of a child scope is placed deeper than the scope, and its next segment names the child scope. -/
theorem IsLocated.exists_deeper_of_mem_child {id child : String} (hchild : IsChildOf scope child)
    (hid : id ∈ topology.leavesIn child) :
    ∃ location name more, topology.location? id = some location ∧ child = below scope name ∧
      segments location.toList = segments scope.toList ++ name :: more := by
  obtain ⟨location, hlocation, more, hmore⟩ := (hlocated.mem_leavesIn_iff_prefix (.inr hchild.accepted) id).mp hid
  obtain ⟨name, hname⟩ := hchild.deeper
  refine ⟨location, name, more, hlocation, hchild.eq_below hname, ?_⟩
  rw [← hmore, hname, List.append_assoc, List.singleton_append]

theorem IsLocated.mem_childScopes_iff (child : String) :
    child ∈ topology.childScopes scope ↔ IsChildOf scope child ∧ topology.leavesIn child ≠ [] := by
  unfold childScopes
  simp only [List.mem_dedup, List.mem_filterMap, Option.bind_eq_some_iff]
  constructor
  · rintro ⟨id, hid, location, hlocation, htoward⟩
    obtain ⟨_, hlocation', rest, hrest⟩ := (hlocated.mem_leavesIn_iff_prefix hscope id).mp hid
    obtain rfl : location = _ := Option.some.inj (hlocation.symm.trans hlocation')
    rw [childToward_eq hrest.symm, Option.map_eq_some_iff] at htoward
    obtain ⟨name, hname, rfl⟩ := htoward
    obtain ⟨more, rfl⟩ := List.head?_eq_some_iff.mp hname
    obtain ⟨hchild, hleaf⟩ := hlocated.mem_leavesIn_below hscope hlocation hrest.symm
    exact ⟨hchild, List.ne_nil_of_mem hleaf⟩
  · rintro ⟨hchild, hleaves⟩
    obtain ⟨id, hid⟩ := List.exists_mem_of_ne_nil _ hleaves
    obtain ⟨location, name, more, hlocation, hbelow, hrest⟩ := hlocated.exists_deeper_of_mem_child hchild hid
    have hscoped := (hlocated.mem_leavesIn_iff_prefix hscope id).mpr ⟨location, hlocation, _, hrest.symm⟩
    refine ⟨id, hscoped, location, hlocation, ?_⟩
    rw [childToward_eq hrest, hbelow, List.head?_cons, Option.map_some]

/-! ## Parting -/

omit hscope in
/-- Two child scopes that share a leaf are the same. -/
theorem IsLocated.disjoint_leavesIn {child other : String} (hchild : IsChildOf scope child)
    (hother : IsChildOf scope other) (hne : child ≠ other) :
    (topology.leavesIn child).Disjoint (topology.leavesIn other) := by
  intro id hid hid'
  obtain ⟨location, name, more, hlocation, rfl, hsegments⟩ := hlocated.exists_deeper_of_mem_child hchild hid
  obtain ⟨_, name', more', hlocation', rfl, hsegments'⟩ := hlocated.exists_deeper_of_mem_child hother hid'
  obtain rfl : location = _ := Option.some.inj (hlocation.symm.trans hlocation')
  obtain ⟨hname, -⟩ := List.cons.inj (List.append_cancel_left (hsegments.symm.trans hsegments'))
  exact hne (congrArg (below scope) hname)

omit hscope in
/-- A datanode that is placed at a scope is no leaf of a child scope. -/
theorem IsLocated.not_mem_leavesIn_of_mem_placedAt {id child : String} (hid : id ∈ topology.placedAt scope)
    (hchild : IsChildOf scope child) : id ∉ topology.leavesIn child := by
  intro hleaf
  obtain ⟨location, name, more, hlocation, -, hsegments⟩ := hlocated.exists_deeper_of_mem_child hchild hleaf
  obtain rfl : location = scope :=
    Option.some.inj (hlocation.symm.trans ((topology.mem_placedAt_iff id scope).mp hid))
  exact absurd (List.self_eq_append_right.mp hsegments) (List.cons_ne_nil name more)

/-- A leaf of a scope is placed there, or it is a leaf of a scope one segment deeper. -/
theorem IsLocated.mem_leavesIn_iff_parted (id : String) :
    id ∈ topology.leavesIn scope ↔
      id ∈ topology.placedAt scope ∨ ∃ child ∈ topology.childScopes scope, id ∈ topology.leavesIn child := by
  constructor
  · intro hid
    obtain ⟨location, hlocation, rest, hrest⟩ := (hlocated.mem_leavesIn_iff_prefix hscope id).mp hid
    cases rest with
    | nil =>
      rw [List.append_nil] at hrest
      obtain rfl := hscope.eq_of_segments_eq (hlocated hlocation) hrest.symm
      exact .inl ((topology.mem_placedAt_iff id location).mpr hlocation)
    | cons name more =>
      obtain ⟨hchild, hleaf⟩ := hlocated.mem_leavesIn_below hscope hlocation hrest.symm
      exact .inr ⟨_, (hlocated.mem_childScopes_iff hscope _).mpr ⟨hchild, List.ne_nil_of_mem hleaf⟩, hleaf⟩
  · rintro (hplaced | ⟨child, hchild, hleaf⟩)
    · have hlocation := (topology.mem_placedAt_iff id scope).mp hplaced
      exact (hlocated.mem_leavesIn_iff_prefix hscope id).mpr ⟨scope, hlocation, List.prefix_rfl⟩
    · have hchildOf := ((hlocated.mem_childScopes_iff hscope child).mp hchild).1
      obtain ⟨location, name, more, hlocation, -, hsegments⟩ := hlocated.exists_deeper_of_mem_child hchildOf hleaf
      exact (hlocated.mem_leavesIn_iff_prefix hscope id).mpr ⟨location, hlocation, _, hsegments.symm⟩

theorem IsLocated.leavesIn_perm :
    (topology.leavesIn scope).Perm
      (topology.placedAt scope ++ (topology.childScopes scope).flatMap topology.leavesIn) := by
  have hchildren := hlocated.mem_childScopes_iff hscope
  have hdeeper : ((topology.childScopes scope).flatMap topology.leavesIn).Nodup := by
    apply List.nodup_flatMap.mpr
    refine ⟨fun child _ ↦ topology.nodup_leavesIn child, ?_⟩
    apply (List.nodup_dedup _).pairwise_of_forall_ne
    intro child hchild other hother hne
    exact hlocated.disjoint_leavesIn ((hchildren child).mp hchild).1 ((hchildren other).mp hother).1 hne
  have hapart : (topology.placedAt scope).Disjoint ((topology.childScopes scope).flatMap topology.leavesIn) := by
    intro id hid hleaf
    obtain ⟨child, hchild, hleaf⟩ := List.mem_flatMap.mp hleaf
    exact hlocated.not_mem_leavesIn_of_mem_placedAt hid ((hchildren child).mp hchild).1 hleaf
  apply (List.perm_ext_iff_of_nodup (topology.nodup_leavesIn scope)
    ((topology.nodup_placedAt scope).append hdeeper hapart)).mpr
  intro id
  rw [hlocated.mem_leavesIn_iff_parted hscope, List.mem_append, List.mem_flatMap]

end Located

/-- In a topology whose locations were all accepted, the leaves of the root or of an accepted scope are the datanodes
whose location begins with the segments of the scope, each once and in ascending order.  They are those placed exactly
there and, apart from these and from each other, the leaves of the scopes one segment deeper. -/
theorem leaves_listed_by_segments {topology : Topology}
    (hlocated : ∀ {id location}, topology.location? id = some location →
      Validation.networkLocation (some (.text location)) = none)
    {scope : String} (hscope : scope = "/" ∨ Validation.networkLocation (some (.text scope)) = none) :
    topology.IsListed scope where
  mem := IsLocated.mem_leavesIn_iff_prefix hlocated hscope
  root := by
    rintro rfl id
    rw [mem_leavesIn_iff, contains, OrderedMap.contains_iff]
    simp [location?]
  ascending := topology.pairwise_before_leavesIn scope
  nodup := topology.nodup_leavesIn scope
  parted := IsLocated.leavesIn_perm hlocated hscope
  children := IsLocated.mem_childScopes_iff hlocated hscope
  distinct := List.nodup_dedup _
  disjoint := IsLocated.disjoint_leavesIn hlocated

/-- Of two racks one name begins with the other's, and the leaves of the shorter one are its own. -/
theorem leaves_listed_by_segments_of_like_names :
    let topology : Topology :=
      ⟨.ofList [("a", "/dc1/rack10"), ("b", "/dc1/rack1"), ("c", "/dc1/rack10"), ("d", "/dc10")]⟩
    topology.IsListed "/dc1" ∧ topology.leavesIn "/dc1" = ["a", "b", "c"] ∧
      topology.childScopes "/dc1" = ["/dc1/rack1", "/dc1/rack10"] ∧ topology.leavesIn "/dc1/rack1" = ["b"] := by
  intro topology
  have hall : ∀ leaf ∈ topology.leaves.entries, IsAccepted leaf.2 := by decide +kernel
  have hlocated {id location : String} (hlocation : topology.location? id = some location) : IsAccepted location :=
    hall (id, location) ((OrderedMap.get?_eq_some_iff topology.leaves id location).mp hlocation)
  have hscope : IsScope "/dc1" := .inr (by decide)
  have hleaves : topology.leavesIn "/dc1" = ["a", "b", "c"] := List.mergeSort_of_pairwise (by decide +kernel)
  have hown : topology.leavesIn "/dc1/rack1" = ["b"] := List.mergeSort_of_pairwise (by decide +kernel)
  refine ⟨leaves_listed_by_segments hlocated hscope, hleaves, ?_, hown⟩
  rw [childScopes, hleaves]
  decide +kernel

end Topology

end ClusterMembership
