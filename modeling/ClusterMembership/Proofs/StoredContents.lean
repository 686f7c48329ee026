import ClusterMembership.Proofs.StoredShape

/-!
# What a stored value says

A stored value that has the shape of details says ten things: six texts, two numbers, an operational state and for a
list of ports the name and the number of each.  These are all that reading keeps of it.  So a value is read exactly when
it says something, the result is written from what it says and from nothing else, and it says the same again.
-/

namespace ClusterMembership

/-- The ten things that stored details say. -/
structure StoredContents where
  id : String
  hostName : String
  ipAddress : String
  ports : List (PortName × Number)
  networkLocation : String
  state : OperationalState
  expiry : Number
  version : String
  setupTime : Number
  revision : String

namespace StoredContents

/-- A port with nothing but its name and its number. -/
def portValue (port : PortName × Number) : Value := .object [("name", .text port.1.name), ("value", .number port.2)]

/-- The details that say ten things and no more. -/
def toDetails (contents : StoredContents) : Details :=
  ⟨[("uuid", .text contents.id), ("hostName", .text contents.hostName), ("ipAddress", .text contents.ipAddress),
    ("ports", .list (contents.ports.map portValue)), ("networkLocation", .text contents.networkLocation),
    ("persistedOpState", .text contents.state.name), ("persistedOpStateExpiryEpochSec", .number contents.expiry),
    ("version", .text contents.version), ("setupTime", .number contents.setupTime),
    ("revision", .text contents.revision)]⟩

/-- A value says that a port has a name and a number. -/
structure NamesPort (value : Value) (port : PortName × Number) : Prop where
  object : value.isObject = true
  name : value.member "name" = some (.text port.1.name)
  number : value.member "value" = some (.number port.2)

/-- A value says ten things, whatever else it says. -/
structure IsIn (contents : StoredContents) (value : Value) : Prop where
  object : value.isObject = true
  id : value.member "uuid" = some (.text contents.id)
  hostName : value.member "hostName" = some (.text contents.hostName)
  ipAddress : value.member "ipAddress" = some (.text contents.ipAddress)
  ports : ∃ ports, value.member "ports" = some (.list ports) ∧ List.Forall₂ NamesPort ports contents.ports
  networkLocation : value.member "networkLocation" = some (.text contents.networkLocation)
  state : value.member "persistedOpState" = some (.text contents.state.name)
  expiry : value.member "persistedOpStateExpiryEpochSec" = some (.number contents.expiry)
  version : value.member "version" = some (.text contents.version)
  setupTime : value.member "setupTime" = some (.number contents.setupTime)
  revision : value.member "revision" = some (.text contents.revision)

end StoredContents

/-! ## Names that are written -/

/-- A field is the written form of one of the things that are listed. -/
theorem Field.any_find?_name_iff {α : Type} {all : List α} (hall : ∀ item, item ∈ all) (name : α → String)
    (field : Field) :
    (field.text?.any fun text ↦ (all.find? fun item ↦ name item = text).isSome) = true ↔
      ∃ item, field = some (.text (name item)) := by
  unfold Field.text?
  split
  · next text =>
    simp only [Option.any_some, List.find?_isSome, decide_eq_true_eq, Option.some.injEq, Value.text.injEq]
    exact ⟨fun ⟨item, _, hitem⟩ ↦ ⟨item, hitem.symm⟩, fun ⟨item, hitem⟩ ↦ ⟨item, hall item, hitem.symm⟩⟩
  · next hother => exact ⟨nofun, fun ⟨item, hitem⟩ ↦ absurd hitem (hother (name item))⟩

theorem OperationalState.isWritten_iff (field : Field) :
    isWritten field = true ↔ ∃ state : OperationalState, field = some (.text state.name) :=
  Field.any_find?_name_iff (fun state ↦ by cases state <;> decide) name field

theorem PortName.isWritten_iff (field : Field) :
    isWritten field = true ↔ ∃ port : PortName, field = some (.text port.name) :=
  Field.any_find?_name_iff (fun port ↦ by cases port <;> decide) name field

namespace StoredDetails

open StoredContents

/-! ## Reading the parts -/

theorem readState_eq_some_iff_named (field : Field) (kept : Value) :
    readState field = some kept ↔
      ∃ state : OperationalState, field = some (.text state.name) ∧ kept = .text state.name := by
  rw [readState_eq_some_iff, OperationalState.isWritten_iff]
  constructor
  · rintro ⟨⟨state, rfl⟩, hkept⟩
    exact ⟨state, rfl, (Option.some.inj hkept).symm⟩
  · rintro ⟨state, rfl, rfl⟩
    exact ⟨⟨state, rfl⟩, rfl⟩

theorem readPort_eq_some_iff_named (port kept : Value) :
    readPort port = some kept ↔ ∃ entry, NamesPort port entry ∧ kept = portValue entry := by
  rw [readPort_eq_some_iff]
  constructor
  · rintro ⟨text, number, hwritten, hname, hnumber, rfl⟩
    obtain ⟨name, htext⟩ := (PortName.isWritten_iff _).mp hwritten
    obtain rfl : text = name.name := by simpa using htext
    have hobject : port.isObject = true := by
      cases port with
      | object members => rfl
      | _ => cases hname
    exact ⟨(name, number), ⟨hobject, hname, hnumber⟩, rfl⟩
  · rintro ⟨⟨name, number⟩, hnames, rfl⟩
    exact ⟨name.name, number, (PortName.isWritten_iff _).mpr ⟨name, rfl⟩, hnames.name, hnames.number, rfl⟩

theorem forall₂_readPort_iff (ports copied : List Value) :
    List.Forall₂ (fun port copy ↦ readPort port = some copy) ports copied ↔
      ∃ entries, List.Forall₂ NamesPort ports entries ∧ copied = entries.map portValue := by
  induction ports generalizing copied with
  | nil => simp
  | cons port rest ih =>
    rw [List.forall₂_cons_left_iff]
    constructor
    · rintro ⟨copy, others, hport, hrest, rfl⟩
      obtain ⟨entry, hentry, rfl⟩ := (readPort_eq_some_iff_named port copy).mp hport
      obtain ⟨entries, hentries, rfl⟩ := (ih others).mp hrest
      exact ⟨entry :: entries, .cons hentry hentries, rfl⟩
    · rintro ⟨entries, hentries, rfl⟩
      obtain ⟨entry, others, hentry, hothers, rfl⟩ := List.forall₂_cons_left_iff.mp hentries
      exact ⟨portValue entry, others.map portValue, (readPort_eq_some_iff_named port _).mpr ⟨entry, hentry, rfl⟩,
        (ih _).mpr ⟨others, hothers, rfl⟩, rfl⟩

theorem readPorts_eq_some_iff_named (field : Field) (kept : Value) :
    readPorts field = some kept ↔ ∃ entries : List (PortName × Number),
      (∃ ports, field = some (.list ports) ∧ List.Forall₂ NamesPort ports entries) ∧
        kept = .list (entries.map portValue) := by
  simp only [readPorts_eq_some_iff, forall₂_readPort_iff]
  constructor
  · rintro ⟨ports, _, hfield, ⟨entries, hentries, rfl⟩, rfl⟩
    exact ⟨entries, ⟨ports, hfield, hentries⟩, rfl⟩
  · rintro ⟨entries, ⟨ports, hfield, hentries⟩, rfl⟩
    exact ⟨ports, _, hfield, ⟨entries, hentries, rfl⟩, rfl⟩

/-! ## Reading the whole -/

theorem readMembers_shape_eq_some_iff (members kept : Members) :
    readMembers members shape = some kept ↔
      ∃ contents : StoredContents, contents.IsIn (.object members) ∧ kept = contents.toDetails.members := by
  simp only [shape, readMembers_cons_eq_some_iff, readText_eq_some_iff, readNumber_eq_some_iff,
    readState_eq_some_iff_named, readPorts_eq_some_iff_named]
  constructor
  · intro h
    obtain ⟨_, _, ⟨id, hid, rfl⟩, h, rfl⟩ := h
    obtain ⟨_, _, ⟨host, hhost, rfl⟩, h, rfl⟩ := h
    obtain ⟨_, _, ⟨address, haddress, rfl⟩, h, rfl⟩ := h
    obtain ⟨_, _, ⟨ports, hports, rfl⟩, h, rfl⟩ := h
    obtain ⟨_, _, ⟨location, hlocation, rfl⟩, h, rfl⟩ := h
    obtain ⟨_, _, ⟨state, hstate, rfl⟩, h, rfl⟩ := h
    obtain ⟨_, _, ⟨expiry, hexpiry, rfl⟩, h, rfl⟩ := h
    obtain ⟨_, _, ⟨version, hversion, rfl⟩, h, rfl⟩ := h
    obtain ⟨_, _, ⟨setup, hsetup, rfl⟩, h, rfl⟩ := h
    obtain ⟨_, _, ⟨revision, hrevision, rfl⟩, h, rfl⟩ := h
    obtain rfl : [] = _ := Option.some.inj h
    exact ⟨⟨id, host, address, ports, location, state, expiry, version, setup, revision⟩,
      ⟨rfl, hid, hhost, haddress, hports, hlocation, hstate, hexpiry, hversion, hsetup, hrevision⟩, rfl⟩
  · rintro ⟨contents, h, rfl⟩
    refine ⟨_, _, ⟨_, h.id, rfl⟩, ?_, rfl⟩
    refine ⟨_, _, ⟨_, h.hostName, rfl⟩, ?_, rfl⟩
    refine ⟨_, _, ⟨_, h.ipAddress, rfl⟩, ?_, rfl⟩
    refine ⟨_, _, ⟨_, h.ports, rfl⟩, ?_, rfl⟩
    refine ⟨_, _, ⟨_, h.networkLocation, rfl⟩, ?_, rfl⟩
    refine ⟨_, _, ⟨_, h.state, rfl⟩, ?_, rfl⟩
    refine ⟨_, _, ⟨_, h.expiry, rfl⟩, ?_, rfl⟩
    refine ⟨_, _, ⟨_, h.version, rfl⟩, ?_, rfl⟩
    refine ⟨_, _, ⟨_, h.setupTime, rfl⟩, ?_, rfl⟩
    refine ⟨_, _, ⟨_, h.revision, rfl⟩, ?_, rfl⟩
    rfl

/-- A value is read as what is written from what it says. -/
theorem read?_eq_some_iff (value : Value) (kept : Details) :
    read? value = some kept ↔ ∃ contents : StoredContents, contents.IsIn value ∧ kept = contents.toDetails := by
  cases value with
  | object members =>
    simp only [read?, Option.map_eq_some_iff, readMembers_shape_eq_some_iff]
    constructor
    · rintro ⟨_, ⟨contents, hcontents, rfl⟩, rfl⟩
      exact ⟨contents, hcontents, rfl⟩
    · rintro ⟨contents, hcontents, rfl⟩
      exact ⟨_, ⟨contents, hcontents, rfl⟩, rfl⟩
  | _ => exact ⟨nofun, fun ⟨_, hcontents, _⟩ ↦ absurd hcontents.object Bool.false_ne_true⟩

end StoredDetails

/-! ## Writing and reading -/

namespace StoredContents

theorem namesPort_portValue (port : PortName × Number) : NamesPort (portValue port) port := ⟨rfl, rfl, rfl⟩

/-- What is written from the ten things says them. -/
theorem isIn_toDetails (contents : StoredContents) : contents.IsIn contents.toDetails.toValue where
  object := rfl
  id := rfl
  hostName := rfl
  ipAddress := rfl
  ports := by
    refine ⟨contents.ports.map portValue, rfl, ?_⟩
    rw [List.forall₂_map_left_iff, List.forall₂_same]
    exact fun port _ ↦ namesPort_portValue port
  networkLocation := rfl
  state := rfl
  expiry := rfl
  version := rfl
  setupTime := rfl
  revision := rfl

/-- Any value is read exactly when it is an object that has six texts, two numbers, an operational state and a list of
named and numbered ports in their places.  The result is the object with these ten members, the ports reduced to name
and number and in the same order; and reading the result gives it again. -/
theorem stored_read_as_said (value : Value) :
    (∀ kept, StoredDetails.read? value = some kept ↔
      ∃ contents : StoredContents, contents.IsIn value ∧ kept = contents.toDetails) ∧
      ∀ kept, StoredDetails.read? value = some kept → StoredDetails.read? kept.toValue = some kept := by
  refine ⟨StoredDetails.read?_eq_some_iff value, fun kept hread ↦ ?_⟩
  obtain ⟨contents, -, rfl⟩ := (StoredDetails.read?_eq_some_iff value kept).mp hread
  exact (StoredDetails.read?_eq_some_iff _ _).mpr ⟨contents, contents.isIn_toDetails, rfl⟩

/-- Members in another order, a member that is not known, and a port that says more than its name and number. -/
theorem stored_read_as_said_of_more :
    let port : Value := .object [("value", .number 9858), ("secure", .bool true), ("name", .text "RATIS")]
    let value : Value := .object
      [("labels", .list [.null]), ("revision", .text "r7"), ("setupTime", .number (.finite (1 / 2))),
        ("version", .text ""), ("persistedOpStateExpiryEpochSec", .number .notANumber),
        ("persistedOpState", .text "IN_MAINTENANCE"), ("networkLocation", .text "/rack1"), ("ports", .list [port]),
        ("ipAddress", .text "10.0.0.1"), ("hostName", .text "dn1"), ("uuid", .text "n1")]
    let contents : StoredContents :=
      { id := "n1", hostName := "dn1", ipAddress := "10.0.0.1", ports := [(.ratis, 9858)], networkLocation := "/rack1"
        state := .inMaintenance, expiry := .notANumber, version := "", setupTime := .finite (1 / 2), revision := "r7" }
    StoredDetails.read? value = some contents.toDetails ∧
      StoredDetails.read? contents.toDetails.toValue = some contents.toDetails := by
  intro port value contents
  have hports : ∃ ports, value.member "ports" = some (.list ports) ∧ List.Forall₂ NamesPort ports contents.ports :=
    ⟨[port], rfl, .cons ⟨rfl, rfl, rfl⟩ .nil⟩
  have hsaid : contents.IsIn value := ⟨rfl, rfl, rfl, rfl, hports, rfl, rfl, rfl, rfl, rfl, rfl⟩
  obtain ⟨hreads, hagain⟩ := stored_read_as_said value
  have hread := (hreads contents.toDetails).mpr ⟨contents, hsaid, rfl⟩
  exact ⟨hread, hagain _ hread⟩

end StoredContents

end ClusterMembership
