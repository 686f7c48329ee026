import ClusterMembership.Proofs.Location
import ClusterMembership.Service.Registration

/-!
# Admitted details

Details that pass the admission are in their kept form, and what is in its kept form passes unchanged:
normalizing copies ports that are objects already and names a location that is named already.  Of the checks only
those of the operational state and its expiry can fail later, since these two members are the only ones that the
service replaces.  `Details.Kept` collects what cannot fail any more.
-/

namespace ClusterMembership

/-- Details in their kept form, with every member checked except the operational state and its expiry. -/
structure Details.Kept (details : Details) : Prop where
  identified : ∃ id, details.identity = some (.text id) ∧ Identifier.isValid id = true
  located : ∃ path, details.networkLocation = some (.text path) ∧
    Location.isWellFormed path.toList = true
  listed : ∃ ports, details.ports = some (.list ports) ∧ Validation.portsFlaw [] 0 ports = .ok none
  hostName : Validation.hostName details.hostName = none
  ipAddress : Validation.ipAddress details.ipAddress = none
  setupTime : Validation.nonNegativeInteger "setupTime" (details.get "setupTime") = none

/-- An operational state and an expiry with which details may register. -/
structure Validation.StateValid (state expiry : Field) : Prop where
  state : Validation.operational Validation.operationalField state = none
  expiry : Validation.nonNegativeInteger "persistedOpStateExpiryEpochSec" expiry = none

instance (state expiry : Field) : Decidable (Validation.StateValid state expiry) :=
  decidable_of_iff
    (Validation.operational Validation.operationalField state = none ∧
      Validation.nonNegativeInteger "persistedOpStateExpiryEpochSec" expiry = none)
    ⟨fun h ↦ ⟨h.1, h.2⟩, fun h ↦ ⟨h.state, h.expiry⟩⟩

namespace Details.Kept

variable {details : Details}

theorem identity_eq (hkept : details.Kept) : details.identity = some (.text details.id) := by
  obtain ⟨id, hid, -⟩ := hkept.identified
  rw [Details.id, hid]
  rfl

theorem isValid_id (hkept : details.Kept) : Identifier.isValid details.id = true := by
  obtain ⟨id, hid, hvalid⟩ := hkept.identified
  rw [Details.id, hid]
  exact hvalid

theorem segments_id_ne_nil (hkept : details.Kept) : Location.segments details.id.toList ≠ [] :=
  Identifier.segments_ne_nil_of_isValid hkept.isValid_id

theorem networkLocation_eq (hkept : details.Kept) :
    details.networkLocation = some (.text details.location) := by
  obtain ⟨path, hpath, -⟩ := hkept.located
  rw [Details.location, hpath]
  rfl

theorem isWellFormed_location (hkept : details.Kept) :
    Location.isWellFormed details.location.toList = true := by
  obtain ⟨path, hpath, hformed⟩ := hkept.located
  rw [Details.location, hpath]
  exact hformed

@[simp]
theorem meant_location (hkept : details.Kept) : Topology.meant details.location = details.location :=
  Location.meant_of_isWellFormed hkept.isWellFormed_location

/-- The operational state and its expiry have no part in the kept form. -/
theorem withOperational (hkept : details.Kept) (state expiry : Field) :
    (details.withOperational state expiry).Kept := by
  have hget {name : String} (hstate : "persistedOpState" ≠ name)
      (hexpiry : "persistedOpStateExpiryEpochSec" ≠ name) :
      (details.withOperational state expiry).get name = details.get name :=
    details.get_withOperational_of_ne state expiry hstate hexpiry
  exact
    { identified := by
        rw [Details.identity_withOperational]
        exact hkept.identified
      located := by
        rw [Details.networkLocation_withOperational]
        exact hkept.located
      listed := by
        unfold Details.ports
        rw [hget (by decide) (by decide)]
        exact hkept.listed
      hostName := by
        unfold Details.hostName
        rw [hget (by decide) (by decide)]
        exact hkept.hostName
      ipAddress := by
        unfold Details.ipAddress
        rw [hget (by decide) (by decide)]
        exact hkept.ipAddress
      setupTime := by
        rw [hget (by decide) (by decide)]
        exact hkept.setupTime }

end Details.Kept

/-! ## Ports -/

namespace Validation

/-- Ports are without a flaw when the first is, and the others are after it. -/
theorem portsFlaw_cons_eq_none_iff {seen : List String} {index : Nat} {first : Value} {rest : List Value} :
    portsFlaw seen index (first :: rest) = .ok none ↔
      portFlaw seen index first = .ok none ∧
        portsFlaw (seen ++ [(first.member "name").text]) (index + 1) rest = .ok none := by
  rw [portsFlaw]
  cases portFlaw seen index first with
  | error failure => simp
  | ok found => cases found <;> simp

/-- A port is without a flaw when it passes the four tests in a row. -/
theorem portFlaw_eq_none_iff {seen : List String} {index : Nat} {port : Value} :
    portFlaw seen index port = .ok none ↔
      port.isObject = true ∧ PortName.isWritten (port.member "name") = true ∧
        isPortValue (port.member "value") = true ∧ seen.contains (port.member "name").text = false := by
  unfold portFlaw
  cases port.isObject with
  | false => simp
  | true =>
    cases hname : PortName.isWritten (port.member "name") with
    | false => cases hshown : shown (port.member "name") <;> simp [hname, hshown, Except.map]
    | true => cases isPortValue (port.member "value") <;> simp [hname]

/-- Ports without a flaw are objects. -/
theorem isObject_of_portsFlaw_eq_none {seen : List String} {index : Nat} {ports : List Value}
    (h : portsFlaw seen index ports = .ok none) : ∀ port ∈ ports, port.isObject = true := by
  induction ports generalizing seen index with
  | nil => simp
  | cons first rest ih =>
    obtain ⟨hfirst, hrest⟩ := portsFlaw_cons_eq_none_iff.mp h
    exact List.forall_mem_cons.mpr ⟨(portFlaw_eq_none_iff.mp hfirst).1, ih hrest⟩

end Validation

namespace Details

/-- A copy of an object has the members of the object. -/
theorem copyPorts_of_isObject {ports : List Value} (h : ∀ port ∈ ports, port.isObject = true) :
    copyPorts (some (.list ports)) = .ok ports := by
  have hcopy : ports.map (fun port ↦ Value.object (membersOf port)) = ports := by
    have hsame : ∀ port ∈ ports, Value.object (membersOf port) = port := by
      intro port hport
      have hobject := h port hport
      cases port with
      | object members => rfl
      | _ => simp [Value.isObject] at hobject
    exact (List.map_congr_left hsame).trans (List.map_id' ports)
  rw [copyPorts, hcopy]

/-- Details in their kept form are not changed by normalizing them. -/
theorem normalize_of_kept {details : Details} (hkept : details.Kept) :
    details.normalize = .ok details := by
  obtain ⟨ports, hports, hflaw⟩ := hkept.listed
  obtain ⟨path, hpath, hformed⟩ := hkept.located
  have hcopy : copyPorts details.ports = .ok ports := by
    rw [hports]
    exact copyPorts_of_isObject (Validation.isObject_of_portsFlaw_eq_none hflaw)
  have hlocation : keptLocation details.networkLocation = .text path := by
    have hpath' : path ≠ "" := by
      intro hempty
      rw [hempty] at hformed
      simp [Location.isWellFormed] at hformed
    simp [hpath, keptLocation, Field.isTruthy, Value.isTruthy, hpath']
  have hsetPorts : details.members.set "ports" (.list ports) = details.members :=
    Association.put_of_find?_eq_some hports
  have hsetLocation : details.members.set "networkLocation" (.text path) = details.members :=
    Association.put_of_find?_eq_some hpath
  rw [normalize, hcopy, hlocation, Except.map, hsetPorts, hsetLocation]

end Details

/-! ## Screening -/

namespace Validation

/-- Details have no flaws exactly when each of the eight checks finds none. -/
theorem check_eq_nil_iff (members : Members) :
    check (some (.object members)) = .ok [] ↔
      (identifier (Members.get members "uuid") = none ∧ hostName (Members.get members "hostName") = none ∧
        ipAddress (Members.get members "ipAddress") = none ∧
        checkPorts (Members.get members "ports") = .ok none ∧
        networkLocation (Members.get members "networkLocation") = none) ∧
      StateValid (Members.get members "persistedOpState")
        (Members.get members "persistedOpStateExpiryEpochSec") ∧
      nonNegativeInteger "setupTime" (Members.get members "setupTime") = none := by
  have hvalid (state expiry : Field) : StateValid state expiry ↔
      operational operationalField state = none ∧
        nonNegativeInteger "persistedOpStateExpiryEpochSec" expiry = none :=
    ⟨fun h ↦ ⟨h.state, h.expiry⟩, fun h ↦ ⟨h.1, h.2⟩⟩
  simp only [check]
  cases checkPorts (Members.get members "ports") with
  | error failure => simp [Except.map]
  | ok found =>
    simp only [Except.map, Except.ok.injEq, List.filterMap_eq_nil_iff, List.forall_mem_cons, List.not_mem_nil,
      false_implies, implies_true, and_true, hvalid, and_assoc]

theorem requiredText_eq_none_iff (field label : String) (form : String → Option Flaw) (value : Field) :
    requiredText field label form value = none ↔
      ∃ text, value = some (.text text) ∧ text ≠ "" ∧ form text = none := by
  cases value with
  | none => simp [requiredText]
  | some value =>
    cases value with
    | text text =>
      by_cases hempty : text = ""
      · simp [requiredText, hempty]
      · simp [requiredText, hempty]
    | _ => simp [requiredText]

theorem identifier_eq_none_iff (value : Field) :
    identifier value = none ↔ ∃ id, value = some (.text id) ∧ Identifier.isValid id = true := by
  have hnonempty : Identifier.isValid "" = false := by decide
  unfold identifier
  rw [requiredText_eq_none_iff]
  constructor
  · rintro ⟨id, hid, -, hform⟩
    refine ⟨id, hid, ?_⟩
    cases hvalid : Identifier.isValid id with
    | true => rfl
    | false => simp [hvalid] at hform
  · rintro ⟨id, hid, hvalid⟩
    refine ⟨id, hid, ?_, by rw [if_pos hvalid]⟩
    intro hempty
    rw [hempty, hnonempty] at hvalid
    exact Bool.false_ne_true hvalid

theorem exists_wellFormed_of_keptLocation {location : Field} (h : networkLocation location = none) :
    ∃ path, Details.keptLocation location = .text path ∧ Location.isWellFormed path.toList = true := by
  have hdefault : Location.isWellFormed defaultLocation.toList = true := by decide
  cases location with
  | none => exact ⟨defaultLocation, rfl, hdefault⟩
  | some value =>
    cases value with
    | null => exact ⟨defaultLocation, rfl, hdefault⟩
    | text path =>
      have hformed : Location.isWellFormed path.toList = true := by
        cases hformed : Location.isWellFormed path.toList with
        | true => rfl
        | false => simp [networkLocation, hformed] at h
      have hpath : path ≠ "" := by
        intro hempty
        rw [hempty] at hformed
        simp [Location.isWellFormed] at hformed
      refine ⟨path, ?_, hformed⟩
      simp [Details.keptLocation, Field.isTruthy, Value.isTruthy, hpath]
    | _ => simp [networkLocation] at h

theorem exists_list_of_copyPorts {field : Field} {copied : List Value} (h : checkPorts field = .ok none)
    (hcopy : Details.copyPorts field = .ok copied) : portsFlaw [] 0 copied = .ok none := by
  cases field with
  | none => simp [Details.copyPorts] at hcopy
  | some value =>
    cases value with
    | list listed =>
      have hflaw : portsFlaw [] 0 listed = .ok none := h
      rw [Details.copyPorts_of_isObject (isObject_of_portsFlaw_eq_none hflaw)] at hcopy
      rw [← Except.ok.inj hcopy]
      exact hflaw
    | _ => simp [Details.copyPorts] at hcopy

end Validation

namespace Details

/-- Normalizing replaces the ports and the location and no other member. -/
theorem get_of_normalize {details kept : Details} (h : details.normalize = .ok kept) :
    ∃ copied, copyPorts details.ports = .ok copied ∧ ∀ name, kept.get name =
      if "networkLocation" = name then some (keptLocation details.networkLocation)
      else if "ports" = name then some (.list copied) else details.get name := by
  unfold normalize at h
  cases hcopy : copyPorts details.ports with
  | error failure => simp [hcopy, Except.map] at h
  | ok copied =>
    refine ⟨copied, rfl, fun name ↦ ?_⟩
    rw [hcopy, Except.map] at h
    rw [← Except.ok.inj h, get, Members.get_set, Members.get_set]
    rfl

theorem id_of_normalize {details kept : Details} (h : details.normalize = .ok kept) : kept.id = details.id := by
  obtain ⟨copied, -, hget⟩ := get_of_normalize h
  unfold id identity
  rw [hget, if_neg (by decide), if_neg (by decide)]

/-- What normalizing makes of details without flaws is in its kept form and has a valid operational state. -/
theorem kept_of_normalize {details kept : Details}
    (hflaws : Validation.check (some details.toValue) = .ok []) (h : details.normalize = .ok kept) :
    kept.Kept ∧ Validation.StateValid kept.operational kept.expiry := by
  obtain ⟨⟨hidentifier, hhost, haddress, hports, hlocation⟩, hstate, hsetup⟩ :=
    (Validation.check_eq_nil_iff details.members).mp hflaws
  obtain ⟨copied, hcopy, hget⟩ := get_of_normalize h
  have hother {name : String} (hplace : "networkLocation" ≠ name) (hlist : "ports" ≠ name) :
      kept.get name = details.get name := by
    rw [hget, if_neg hplace, if_neg hlist]
  obtain ⟨path, hpath, hformed⟩ := Validation.exists_wellFormed_of_keptLocation hlocation
  constructor
  · exact
      { identified := by
          unfold identity
          rw [hother (by decide) (by decide)]
          exact (Validation.identifier_eq_none_iff _).mp hidentifier
        located := by
          refine ⟨path, ?_, hformed⟩
          unfold networkLocation
          rw [hget, if_pos rfl]
          exact congrArg some hpath
        listed := by
          refine ⟨copied, ?_, Validation.exists_list_of_copyPorts hports hcopy⟩
          unfold ports
          rw [hget, if_neg (by decide), if_pos rfl]
        hostName := by
          unfold hostName
          rw [hother (by decide) (by decide)]
          exact hhost
        ipAddress := by
          unfold ipAddress
          rw [hother (by decide) (by decide)]
          exact haddress
        setupTime := by
          rw [hother (by decide) (by decide)]
          exact hsetup }
  · unfold operational expiry
    rw [hother (by decide) (by decide), hother (by decide) (by decide)]
    exact hstate

/-- Details that may register: validation finds no flaw, and the ports are listed. -/
structure Admissible (details : Details) : Prop where
  flawless : Validation.check (some details.toValue) = .ok []
  listed : ∃ ports, details.ports = some (.list ports)

/-- Details with the location that they are kept with. -/
def located (details : Details) : Details :=
  ⟨details.members.set "networkLocation" (keptLocation details.networkLocation)⟩

/-- Admissible details change in nothing but their location when they are brought into their kept form. -/
theorem Admissible.normalize_eq {details : Details} (h : details.Admissible) :
    details.normalize = .ok details.located := by
  obtain ⟨ports, hports⟩ := h.listed
  have hflaw : Validation.checkPorts details.ports = .ok none :=
    ((Validation.check_eq_nil_iff details.members).mp h.flawless).1.2.2.2.1
  rw [hports] at hflaw
  have hcopy : copyPorts details.ports = .ok ports := by
    rw [hports]
    exact copyPorts_of_isObject (Validation.isObject_of_portsFlaw_eq_none hflaw)
  have hset : details.members.set "ports" (.list ports) = details.members := Association.put_of_find?_eq_some hports
  rw [normalize, hcopy, Except.map, hset, located]

theorem Admissible.kept_located {details : Details} (h : details.Admissible) : details.located.Kept :=
  (kept_of_normalize h.flawless h.normalize_eq).1

theorem get_located (details : Details) {name : String} (hname : "networkLocation" ≠ name) :
    details.located.get name = details.get name := by
  unfold get located
  rw [Members.get_set, if_neg hname]

@[simp]
theorem id_located (details : Details) : details.located.id = details.id := by
  unfold id identity
  rw [get_located details (by decide)]

/-- Details in their kept form have no other flaws than those of their operational state. -/
theorem Kept.check_eq_nil_iff {details : Details} (hkept : details.Kept) :
    Validation.check (some details.toValue) = .ok [] ↔
      Validation.StateValid details.operational details.expiry := by
  have hiff := Validation.check_eq_nil_iff details.members
  have hidentifier : Validation.identifier details.identity = none :=
    (Validation.identifier_eq_none_iff _).mpr hkept.identified
  have hports : Validation.checkPorts details.ports = .ok none := by
    obtain ⟨listed, hlisted, hflaw⟩ := hkept.listed
    rw [hlisted]
    exact hflaw
  have hlocation : Validation.networkLocation details.networkLocation = none := by
    rw [hkept.networkLocation_eq]
    simp [Validation.networkLocation, hkept.isWellFormed_location]
  constructor
  · intro h
    exact (hiff.mp h).2.1
  · intro h
    exact hiff.mpr
      ⟨⟨hidentifier, hkept.hostName, hkept.ipAddress, hports, hlocation⟩, h, hkept.setupTime⟩

end Details

namespace Manager

/-- Details that are admitted come out in their kept form, and the manager stays as it was. -/
theorem kept_of_screen {manager after : Manager} {offered : Field} {details : Details}
    (h : manager.screen offered = (after, .ok details)) :
    after = manager ∧ details.Kept ∧ Validation.StateValid details.operational details.expiry := by
  unfold screen at h
  split at h
  · simp at h
  · next hflaws =>
    have hafter : manager = after := congrArg Prod.fst h
    have hdetails := congrArg Prod.snd h
    refine ⟨hafter.symm, ?_⟩
    -- Only an object has no flaws.
    cases offered with
    | none => simp [Validation.check] at hflaws
    | some value =>
      cases value with
      | object members => exact Details.kept_of_normalize hflaws hdetails
      | _ => simp [Validation.check] at hflaws
  · split at h <;> simp at h

/-- Admitted details carry the identifier of the details that were offered. -/
theorem exists_offered_of_screen {manager after : Manager} {offered : Field} {details : Details}
    (h : manager.screen offered = (after, .ok details)) :
    ∃ given, Details.ofField offered = .ok given ∧ given.id = details.id := by
  unfold screen at h
  split at h
  · simp at h
  · have hnormalized : (Details.ofField offered).bind Details.normalize = .ok details := congrArg Prod.snd h
    cases hgiven : Details.ofField offered with
    | error failure => simp [hgiven, Except.bind] at hnormalized
    | ok given =>
      rw [hgiven] at hnormalized
      exact ⟨given, rfl, (Details.id_of_normalize hnormalized).symm⟩
  · split at h <;> simp at h

theorem screen_of_admissible (manager : Manager) {details : Details} (h : details.Admissible) :
    manager.screen (some details.toValue) = (manager, .ok details.located) := by
  unfold screen
  rw [h.flawless]
  exact congrArg (Prod.mk manager) h.normalize_eq

/-- Details in their kept form are admitted again exactly when their operational state is valid. -/
theorem screen_toValue (manager : Manager) {details : Details} (hkept : details.Kept)
    (hstate : Validation.StateValid details.operational details.expiry) :
    manager.screen (some details.toValue) = (manager, .ok details) := by
  unfold screen
  rw [hkept.check_eq_nil_iff.mpr hstate]
  exact congrArg (Prod.mk manager) (Details.normalize_of_kept hkept)

/-- Details in their kept form come out of the admission as they went in, if they come out at all. -/
theorem eq_of_screen_toValue {manager after : Manager} {details admitted : Details} (hkept : details.Kept)
    (h : manager.screen (some details.toValue) = (after, .ok admitted)) : admitted = details := by
  unfold screen at h
  split at h
  · simp at h
  · have hnormalized : details.normalize = .ok admitted := congrArg Prod.snd h
    rw [Details.normalize_of_kept hkept] at hnormalized
    exact (Except.ok.inj hnormalized).symm
  · split at h <;> simp at h

end Manager

end ClusterMembership
