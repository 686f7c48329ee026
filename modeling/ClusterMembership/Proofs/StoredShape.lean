import Mathlib.Data.List.Forall2
import ClusterMembership.Table.Stored

/-!
# What is read back of stored details

Stored details are read member by member, so what comes back has at most the ten members of their shape.  It is what was
stored, up to the order of members, exactly when nothing else was there: no other member, and in a port nothing
but its name and its value.  When a member is missing or of another type, nothing is read at all.
-/

namespace ClusterMembership

/-! ## Values up to the order of members -/

/-- Values that differ at most in the order of members. -/
inductive Value.Alike : Value → Value → Prop
  | refl (value : Value) : Alike value value
  | list {items others : List Value} (h : List.Forall₂ Alike items others) : Alike (.list items) (.list others)
  | object {members others : Members}
      (h : ∀ name, Option.Rel Alike (Members.get members name) (Members.get others name)) :
      Alike (.object members) (.object others)

namespace Value

theorem alike_list_iff (items others : List Value) :
    Alike (.list items) (.list others) ↔ List.Forall₂ Alike items others := by
  refine ⟨fun h ↦ ?_, .list⟩
  cases h with
  | refl => exact List.forall₂_same.mpr fun item _ ↦ .refl item
  | list h => exact h

theorem alike_object_iff (members others : Members) :
    Alike (.object members) (.object others) ↔
      ∀ name, Option.Rel Alike (Members.get members name) (Members.get others name) := by
  refine ⟨fun h name ↦ ?_, .object⟩
  cases h with
  | refl =>
    cases Members.get members name with
    | none => exact .none
    | some value => exact .some (.refl value)
  | object h => exact h name

end Value

/-! ## Details that can be read back -/

/-- A port that can be read back: its name is that of a port, and its value a number. -/
def Value.IsStorablePort (port : Value) : Prop :=
  ∃ name number, PortName.isWritten (some (.text name)) = true ∧ port.member "name" = some (.text name) ∧
    port.member "value" = some (.number number)

def Value.IsPlainPort (port : Value) : Prop :=
  ∀ name, port.member name ≠ none → name = "name" ∨ name = "value"

namespace Details

/-- Details that can be read back: each of the ten members is there and of its type. -/
structure IsStorable (details : Details) : Prop where
  text : ∀ name ∈ ["uuid", "hostName", "ipAddress", "networkLocation", "version", "revision"],
    ∃ text, details.get name = some (.text text)
  number : ∀ name ∈ ["persistedOpStateExpiryEpochSec", "setupTime"],
    ∃ number, details.get name = some (.number number)
  state : OperationalState.isWritten details.operational = true
  ports : ∃ ports, details.ports = some (.list ports) ∧ ∀ port ∈ ports, port.IsStorablePort

/-- Details without members beside the ten, and with plain ports. -/
structure HasNoMore (details : Details) : Prop where
  member : ∀ name, details.get name ≠ none → name ∈ StoredDetails.shape.map Prod.fst
  port : ∀ port ∈ details.ports.items, port.IsPlainPort

/-- Details that have exactly the ten members, each of its type. -/
structure IsPlain (details : Details) : Prop extends details.IsStorable, details.HasNoMore

end Details

namespace StoredDetails

/-! ## Ports -/

theorem readPort_eq_some_iff (port kept : Value) :
    readPort port = some kept ↔ ∃ name number, PortName.isWritten (some (.text name)) = true ∧
      port.member "name" = some (.text name) ∧ port.member "value" = some (.number number) ∧
        kept = .object [("name", .text name), ("value", .number number)] := by
  unfold readPort Value.member
  cases port with
  | object members =>
    simp only
    split
    · next name number hname hnumber =>
      rw [hname]
      simp only [hnumber]
      split
      · next hwritten =>
        constructor
        · intro hkept
          exact ⟨name, number, hwritten, rfl, rfl, (Option.some.inj hkept).symm⟩
        · rintro ⟨_, _, -, hname', hnumber', rfl⟩
          simp_all
      · next hwritten =>
        refine ⟨nofun, ?_⟩
        rintro ⟨_, _, hwritten', hname', -⟩
        simp_all
    · next hother =>
      refine ⟨nofun, ?_⟩
      rintro ⟨name, number, -, hname, hnumber, -⟩
      exact absurd hnumber (hother name number hname)
  | _ => simp

theorem isStorablePort_iff (port : Value) : port.IsStorablePort ↔ ∃ kept, readPort port = some kept := by
  simp only [readPort_eq_some_iff, Value.IsStorablePort]
  grind

/-- A port is read back as it is exactly when it is plain. -/
theorem alike_readPort_iff {port kept : Value} (h : readPort port = some kept) :
    kept.Alike port ↔ port.IsPlainPort := by
  obtain ⟨name, number, -, hname, hnumber, rfl⟩ := (readPort_eq_some_iff port kept).mp h
  obtain ⟨members, rfl⟩ : ∃ members, port = .object members := by
    cases port with
    | object members => exact ⟨members, rfl⟩
    | _ => cases hname
  have hkept (other : String) : Members.get [("name", Value.text name), ("value", .number number)] other =
      if "name" = other then some (.text name) else if "value" = other then some (.number number) else none := rfl
  simp only [Value.alike_object_iff, hkept]
  constructor
  · intro halike other hother
    have hrel := halike other
    by_contra hneither
    obtain ⟨hfirst, hsecond⟩ := not_or.mp hneither
    rw [if_neg (Ne.symm hfirst), if_neg (Ne.symm hsecond)] at hrel
    cases hget : Members.get members other with
    | none => exact hother hget
    | some value =>
      rw [hget] at hrel
      cases hrel
  · intro hplain other
    split
    · next hsame =>
      rw [← hsame, show Members.get members "name" = _ from hname]
      exact .some (.refl _)
    · next hfirst =>
      split
      · next hsame =>
        rw [← hsame, show Members.get members "value" = _ from hnumber]
        exact .some (.refl _)
      · next hsecond =>
        have hnone : Members.get members other = none := by
          by_contra hpresent
          exact (hplain other hpresent).elim (fun h ↦ hfirst h.symm) (fun h ↦ hsecond h.symm)
        rw [hnone]
        exact .none

theorem mapM_eq_some_iff {α β : Type} {read : α → Option β} {items : List α} {found : List β} :
    items.mapM read = some found ↔ List.Forall₂ (fun item value ↦ read item = some value) items found := by
  induction items generalizing found with
  | nil => simp [eq_comm]
  | cons item rest ih =>
    simp only [List.mapM_cons, List.forall₂_cons_left_iff, Option.bind_eq_bind, Option.bind_eq_some_iff, ih,
      Option.pure_def, Option.some.injEq]
    grind

theorem readPorts_eq_some_iff (field : Field) (kept : Value) :
    readPorts field = some kept ↔ ∃ ports copied, field = some (.list ports) ∧
      List.Forall₂ (fun port copy ↦ readPort port = some copy) ports copied ∧ kept = .list copied := by
  unfold readPorts
  split
  · next ports =>
    simp only [Option.map_eq_some_iff, mapM_eq_some_iff]
    constructor
    · rintro ⟨copied, hcopied, rfl⟩
      exact ⟨ports, copied, rfl, hcopied, rfl⟩
    · rintro ⟨_, copied, hports, hcopied, rfl⟩
      obtain rfl : ports = _ := by simpa using hports
      exact ⟨copied, hcopied, rfl⟩
  · next hother =>
    refine ⟨nofun, ?_⟩
    rintro ⟨ports, -, hports, -⟩
    exact absurd hports (hother ports)

/-- A list of ports is read back as it is exactly when each port is plain. -/
theorem alike_readPorts_iff {field : Field} {kept : Value} (h : readPorts field = some kept) :
    Option.Rel Value.Alike (some kept) field ↔ ∀ port ∈ field.items, port.IsPlainPort := by
  obtain ⟨ports, copied, rfl, hcopied, rfl⟩ := (readPorts_eq_some_iff field kept).mp h
  have hlists : Option.Rel Value.Alike (some (.list copied)) (some (.list ports)) ↔
      List.Forall₂ Value.Alike copied ports := by
    rw [← Value.alike_list_iff]
    exact ⟨fun hrel ↦ by cases hrel; assumption, .some⟩
  rw [hlists, show Field.items (some (.list ports)) = ports from rfl]
  clear h hlists
  induction hcopied with
  | nil => simp
  | cons hport _ ih =>
    rw [List.forall₂_cons, List.forall_mem_cons]
    exact and_congr (alike_readPort_iff hport) ih

/-! ## Members -/

theorem readText_eq_some_iff (field : Field) (kept : Value) :
    readText field = some kept ↔ ∃ text, field = some (.text text) ∧ kept = .text text := by
  unfold readText
  split <;> simp_all [eq_comm]

theorem readNumber_eq_some_iff (field : Field) (kept : Value) :
    readNumber field = some kept ↔ ∃ number, field = some (.number number) ∧ kept = .number number := by
  unfold readNumber
  split <;> simp_all [eq_comm]

theorem readState_eq_some_iff (field : Field) (kept : Value) :
    readState field = some kept ↔ OperationalState.isWritten field = true ∧ field = some kept := by
  unfold readState
  split <;> simp_all

variable {members kept : Members}

theorem readMembers_cons_eq_some_iff (name : String) (reader : Field → Option Value)
    (rest : List (String × (Field → Option Value))) :
    readMembers members ((name, reader) :: rest) = some kept ↔
      ∃ value others, reader (Members.get members name) = some value ∧
        readMembers members rest = some others ∧ kept = (name, value) :: others := by
  rw [readMembers]
  cases reader (Members.get members name) <;> cases readMembers members rest <;> simp [eq_comm]

/-- Every member of a shape is read from the member of the same name. -/
theorem get_readMembers {shape : List (String × (Field → Option Value))}
    (h : readMembers members shape = some kept) (name : String) :
    Members.get kept name =
      (Association.find? name shape).bind fun reader ↦ reader (Members.get members name) := by
  induction shape generalizing kept with
  | nil =>
    obtain rfl : [] = kept := Option.some.inj h
    rfl
  | cons entry rest ih =>
    obtain ⟨value, others, hvalue, hothers, rfl⟩ := (readMembers_cons_eq_some_iff entry.1 entry.2 rest).mp h
    have hrest := ih hothers
    unfold Members.get at hvalue hrest ⊢
    by_cases hsame : entry.1 = name
    · subst hsame
      simp [Association.find?, hvalue]
    · simpa [Association.find?, hsame] using hrest

/-- A shape is read exactly when each of its members is. -/
theorem exists_readMembers_iff (members : Members) (shape : List (String × (Field → Option Value))) :
    (∃ kept, readMembers members shape = some kept) ↔
      ∀ entry ∈ shape, ∃ value, entry.2 (Members.get members entry.1) = some value := by
  induction shape with
  | nil => simp [readMembers]
  | cons entry rest ih =>
    obtain ⟨first, reader⟩ := entry
    rw [List.forall_mem_cons, ← ih]
    simp only [readMembers_cons_eq_some_iff]
    grind

theorem exists_readPorts_iff (field : Field) :
    (∃ kept, readPorts field = some kept) ↔
      ∃ ports, field = some (.list ports) ∧ ∀ port ∈ ports, port.IsStorablePort := by
  have hcopies (ports : List Value) :
      (∃ copied, List.Forall₂ (fun port copy ↦ readPort port = some copy) ports copied) ↔
        ∀ port ∈ ports, port.IsStorablePort := by
    simp only [isStorablePort_iff]
    induction ports with
    | nil => simp
    | cons port rest ih =>
      rw [List.forall_mem_cons, ← ih]
      simp only [List.forall₂_cons_left_iff]
      grind
  simp only [readPorts_eq_some_iff, ← hcopies]
  grind

theorem read?_toValue (details : Details) :
    read? details.toValue = (readMembers details.members shape).map Details.mk := rfl

/-- Details are read back exactly when they can be. -/
theorem exists_read?_iff (details : Details) : (∃ kept, read? details.toValue = some kept) ↔ details.IsStorable := by
  have hread : (∃ kept, read? details.toValue = some kept) ↔
      ∃ kept, readMembers details.members shape = some kept := by
    simp [read?_toValue]
  have htext (name : String) : (∃ kept, readText (Members.get details.members name) = some kept) ↔
      ∃ text, details.get name = some (.text text) := by
    simp only [readText_eq_some_iff]
    exact ⟨fun ⟨_, text, h, _⟩ ↦ ⟨text, h⟩, fun ⟨text, h⟩ ↦ ⟨_, text, h, rfl⟩⟩
  have hnumber (name : String) : (∃ kept, readNumber (Members.get details.members name) = some kept) ↔
      ∃ number, details.get name = some (.number number) := by
    simp only [readNumber_eq_some_iff]
    exact ⟨fun ⟨_, number, h, _⟩ ↦ ⟨number, h⟩, fun ⟨number, h⟩ ↦ ⟨_, number, h, rfl⟩⟩
  have hstate : (∃ kept, readState (Members.get details.members "persistedOpState") = some kept) ↔
      OperationalState.isWritten details.operational = true := by
    unfold Details.operational Details.get
    cases Members.get details.members "persistedOpState" with
    | none => simp [readState, OperationalState.isWritten, Field.text?]
    | some value => simp [readState_eq_some_iff]
  rw [hread, exists_readMembers_iff]
  simp only [shape, List.forall_mem_cons, List.not_mem_nil, false_implies, implies_true, and_true, htext, hnumber,
    hstate, exists_readPorts_iff]
  constructor
  · rintro ⟨huuid, hhost, haddress, hports, hlocation, hwritten, hexpiry, hversion, hsetup, hrevision⟩
    exact
      { text := by simpa only [List.forall_mem_cons, List.not_mem_nil, false_implies, implies_true, and_true] using
          ⟨huuid, hhost, haddress, hlocation, hversion, hrevision⟩
        number := by simpa only [List.forall_mem_cons, List.not_mem_nil, false_implies, implies_true, and_true] using
          ⟨hexpiry, hsetup⟩
        state := hwritten
        ports := hports }
  · rintro ⟨hthetexts, hthenumbers, hwritten, hports⟩
    simp only [List.forall_mem_cons, List.not_mem_nil, false_implies, implies_true, and_true] at hthetexts hthenumbers
    obtain ⟨huuid, hhost, haddress, hlocation, hversion, hrevision⟩ := hthetexts
    exact ⟨huuid, hhost, haddress, hports, hlocation, hwritten, hthenumbers.1, hversion, hthenumbers.2, hrevision⟩

/-- Every member but the ports is read as it is. -/
theorem eq_of_reader {name : String} {reader : Field → Option Value} (hmem : (name, reader) ∈ shape)
    (hports : name ≠ "ports") {field : Field} {value : Value} (h : reader field = some value) :
    field = some value := by
  have htext (h : readText field = some value) : field = some value := by
    obtain ⟨text, rfl, rfl⟩ := (readText_eq_some_iff field value).mp h
    rfl
  have hnumber (h : readNumber field = some value) : field = some value := by
    obtain ⟨number, rfl, rfl⟩ := (readNumber_eq_some_iff field value).mp h
    rfl
  have hstate (h : readState field = some value) : field = some value :=
    ((readState_eq_some_iff field value).mp h).2
  simp only [shape, List.mem_cons, Prod.mk.injEq, List.not_mem_nil, or_false] at hmem
  rcases hmem with ⟨-, rfl⟩ | ⟨-, rfl⟩ | ⟨-, rfl⟩ | ⟨rfl, -⟩ | ⟨-, rfl⟩ | ⟨-, rfl⟩ | ⟨-, rfl⟩ | ⟨-, rfl⟩ | ⟨-, rfl⟩ |
    ⟨-, rfl⟩
  · exact htext h
  · exact htext h
  · exact htext h
  · exact absurd rfl hports
  · exact htext h
  · exact hstate h
  · exact hnumber h
  · exact htext h
  · exact hnumber h
  · exact htext h

/-- What is read of a member is there exactly when the member is one of the ten. -/
theorem get_read? {details kept : Details} (h : read? details.toValue = some kept) (name : String) :
    kept.get name = (Association.find? name shape).bind fun reader ↦ reader (details.get name) := by
  obtain ⟨members, hmembers, rfl⟩ := Option.map_eq_some_iff.mp ((read?_toValue details).symm.trans h)
  exact get_readMembers hmembers name

/-- Details are read back as they are exactly when they have no other members and their ports are plain. -/
theorem alike_read?_iff {details kept : Details} (h : read? details.toValue = some kept) :
    kept.toValue.Alike details.toValue ↔ details.HasNoMore := by
  have hstorable : details.IsStorable := (exists_read?_iff details).mp ⟨kept, h⟩
  have hports : ∃ copied, readPorts details.ports = some copied ∧ kept.get "ports" = some copied := by
    obtain ⟨copied, hcopied⟩ := (exists_readPorts_iff details.ports).mpr hstorable.ports
    exact ⟨copied, hcopied, (get_read? h "ports").trans hcopied⟩
  obtain ⟨copied, hcopied, hget⟩ := hports
  have hnames (name : String) : Association.find? name shape ≠ none ↔ name ∈ shape.map Prod.fst := by
    rw [← Association.isSome_find?_iff, Option.isSome_iff_ne_none]
  unfold Details.toValue
  rw [Value.alike_object_iff]
  constructor
  · intro halike
    refine ⟨fun name hpresent ↦ (hnames name).mp fun hnone ↦ ?_, ?_⟩
    · have hrel := halike name
      rw [show Members.get kept.members name = none by rw [← Details.get, get_read? h, hnone]; rfl] at hrel
      cases hmember : details.get name with
      | none => exact hpresent hmember
      | some value =>
        rw [show Members.get details.members name = some value from hmember] at hrel
        cases hrel
    · apply (alike_readPorts_iff hcopied).mp
      have hrel := halike "ports"
      rwa [show Members.get kept.members "ports" = some copied from hget] at hrel
  · intro hnomore name
    change Option.Rel Value.Alike (kept.get name) (details.get name)
    by_cases hport : name = "ports"
    · subst hport
      rw [hget]
      exact (alike_readPorts_iff hcopied).mpr hnomore.port
    · rw [get_read? h]
      cases hfind : Association.find? name shape with
      | none =>
        have hnone : details.get name = none := by
          by_contra hpresent
          exact (hnames name).mpr (hnomore.member name hpresent) hfind
        rw [hnone]
        exact .none
      | some reader =>
        have hmem := Association.mem_of_find?_eq_some hfind
        obtain ⟨members, hmembers, -⟩ := Option.map_eq_some_iff.mp ((read?_toValue details).symm.trans h)
        obtain ⟨value, hvalue⟩ := (exists_readMembers_iff details.members shape).mp ⟨members, hmembers⟩ _ hmem
        have hsame : details.get name = some value := eq_of_reader hmem hport hvalue
        have hread : reader (details.get name) = some value := hvalue
        rw [Option.bind_some, hread, hsame]
        exact .some (.refl value)

end StoredDetails

/-! ## Decisions -/

namespace Value

theorem member_ne_none_iff (value : Value) (name : String) :
    value.member name ≠ none ↔ name ∈ (Field.members (some value)).map Prod.fst := by
  rw [← Association.isSome_find?_iff, Option.isSome_iff_ne_none]
  cases value <;> simp [member, Field.members, Members.get, Association.find?]

instance : DecidablePred IsPlainPort := fun port ↦
  decidable_of_iff (∀ name ∈ (Field.members (some port)).map Prod.fst, name = "name" ∨ name = "value")
    (forall_congr' fun name ↦ imp_congr_left (port.member_ne_none_iff name).symm)

end Value

namespace Details

instance : DecidablePred IsStorable := fun details ↦
  decidable_of_iff ((StoredDetails.read? details.toValue).isSome = true)
    (Option.isSome_iff_exists.trans (StoredDetails.exists_read?_iff details))

instance : DecidablePred HasNoMore := fun details ↦
  decidable_of_iff
    ((∀ name ∈ details.members.map Prod.fst, name ∈ StoredDetails.shape.map Prod.fst) ∧
      ∀ port ∈ details.ports.items, port.IsPlainPort)
    ⟨fun h ↦ ⟨fun name hpresent ↦ h.1 name ((details.toValue.member_ne_none_iff name).mp hpresent), h.2⟩,
      fun h ↦ ⟨fun name hlisted ↦ h.member name ((details.toValue.member_ne_none_iff name).mpr hlisted), h.port⟩⟩

instance : DecidablePred IsPlain := fun details ↦
  decidable_of_iff (details.IsStorable ∧ details.HasNoMore)
    ⟨fun h ↦ ⟨h.1, h.2⟩, fun h ↦ ⟨h.toIsStorable, h.toHasNoMore⟩⟩

end Details

/-- Details with all ten members, not in the order in which they are read. -/
def Details.whole (id : String) : Details :=
  ⟨[("uuid", .text id), ("hostName", .text "dn1"), ("ipAddress", .text "10.0.0.1"), ("networkLocation", .text "/rack1"),
    ("ports", .list [.object [("value", .number (.finite 9858)), ("name", .text "RATIS")]]),
    ("persistedOpState", .text OperationalState.inService.name),
    ("persistedOpStateExpiryEpochSec", .number (.finite 0)), ("version", .text "1.4.0"),
    ("setupTime", .number (.finite 1700000000000)), ("revision", .text "rev-1")]⟩

end ClusterMembership
