import ClusterMembership.Proofs.Admission
import ClusterMembership.Proofs.ExactArithmetic
import ClusterMembership.Proofs.StoredContents

/-!
# Rules for ports

The ports of a datanode are checked one after another, each against four rules: it is an object, it has a known name
and an integer in range as its value, and no port before it has its name.  The check goes on with the names seen so
far, which are the names of the ports before as long as each of them kept the rules.  So it ends at the first port
that breaks a rule given the ports before it, and it names the first rule that this port breaks.  An unknown name is
quoted, and this fails where the name has no text.  Ports without a flaw can be looked up: no two answer to one
name.
-/

namespace ClusterMembership

def Value.HasPortName (port : Value) : Prop := ∃ name : PortName, port.member "name" = some (.text name.name)

def Value.HasPortNumber (port : Value) : Prop :=
  ∃ n : Nat, 1 ≤ n ∧ n ≤ 65535 ∧ port.member "value" = some (.number (.finite n))

/-- A value without a text: an object with a member of its own under which it is asked for one, or a list that holds
such an object. -/
inductive Value.Textless : Value → Prop
  | object {members : Members} {value : Value} :
      Members.get members "toString" = some value → Textless (.object members)
  | list {items : List Value} {item : Value} : item ∈ items → Textless item → Textless (.list items)

namespace Value

theorem textless_list_iff (items : List Value) : Textless (.list items) ↔ ∃ item ∈ items, item.Textless := by
  constructor
  · rintro (_ | ⟨hmem, hitem⟩)
    exact ⟨_, hmem, hitem⟩
  · rintro ⟨item, hmem, hitem⟩
    exact .list hmem hitem

mutual

theorem shown?_eq_none_iff : (value : Value) → (value.shown? = none ↔ value.Textless)
  | .null | .bool _ | .number _ | .text _ => by simp only [shown?, reduceCtorEq, false_iff]; exact nofun
  | .list items => by
    rw [shown?, Option.map_eq_none_iff, shownItems?_eq_none_iff items, textless_list_iff]
  | .object members => by
    rw [shown?]
    cases hmember : Members.get members "toString" with
    | none =>
      simp only [Option.isSome_none, Bool.false_eq_true, if_false, reduceCtorEq, false_iff]
      rintro ⟨hgiven⟩
      rw [hmember] at hgiven
      cases hgiven
    | some value =>
      simp only [Option.isSome_some, if_true, true_iff]
      exact .object hmember

theorem shownItems?_eq_none_iff : (items : List Value) → (shownItems? items = none ↔ ∃ item ∈ items, item.Textless)
  | [] => by simp [shownItems?]
  | item :: rest => by
    have hrest := shownItems?_eq_none_iff rest
    have hitem := shown?_eq_none_iff item
    rw [List.exists_mem_cons_iff, ← hrest, ← hitem]
    cases item with
    | null => simp [shownItems?, shown?]
    | _ =>
      rw [shownItems?]
      · cases shown? _ <;> simp
      · exact nofun

end

end Value

/-- A field has no text when it holds a value without one. -/
theorem Field.shown?_eq_none_iff (field : Field) :
    field.shown? = none ↔ ∃ value, field = some value ∧ value.Textless := by
  cases field with
  | none => simp [Field.shown?]
  | some value => simp [Field.shown?, value.shown?_eq_none_iff]

/-- A rule for a port among others, in the order in which the rules are checked. -/
inductive PortRule where
  | object | named | numbered | distinct
  deriving DecidableEq

namespace PortRule

/-- A port keeps a rule, given the ports before it. -/
def Holds (before : List Value) (port : Value) : PortRule → Prop
  | object => port.isObject = true
  | named => port.HasPortName
  | numbered => port.HasPortNumber
  | distinct => ∀ earlier ∈ before, earlier.member "name" ≠ port.member "name"

def sooner : PortRule → List PortRule
  | object => []
  | named => [object]
  | numbered => [object, named]
  | distinct => [object, named, numbered]

/-- What is said of the port at an index when it breaks a rule; an unknown name is quoted, if it has a text. -/
def flaw? (index : Nat) (port : Value) : PortRule → Option Flaw
  | object => some ⟨s!"ports[{index}]", "Port must be an object with name and value", .wrongType⟩
  | named =>
    (port.member "name").shown?.map fun name ↦ ⟨s!"ports[{index}].name", s!"Unknown port name: {name}", .wrongValue⟩
  | numbered => some ⟨s!"ports[{index}].value", "Port value must be an integer between 1 and 65535", .outOfRange⟩
  | distinct =>
    let name := (port.member "name").text
    some ⟨s!"ports[{index}].name", s!"Duplicate port name: {name}", .duplicate⟩

theorem flaw?_eq_none_iff (index : Nat) (port : Value) (rule : PortRule) :
    rule.flaw? index port = none ↔ rule = named ∧ ∃ name, port.member "name" = some name ∧ name.Textless := by
  rw [← Field.shown?_eq_none_iff]
  cases rule <;> simp [flaw?]

/-- A rule is the first that a port breaks, given the ports before it. -/
structure IsFirstBroken (rule : PortRule) (before : List Value) (port : Value) : Prop where
  broken : ¬ rule.Holds before port
  sooner : ∀ other ∈ rule.sooner, other.Holds before port

variable {before : List Value} {port : Value}

theorem eq_or_mem_sooner (rule other : PortRule) : rule = other ∨ rule ∈ other.sooner ∨ other ∈ rule.sooner := by
  cases rule <;> cases other <;> decide

theorem IsFirstBroken.unique {rule other : PortRule} (h : rule.IsFirstBroken before port)
    (h' : other.IsFirstBroken before port) : rule = other := by
  rcases eq_or_mem_sooner rule other with hsame | hsooner | hsooner
  · exact hsame
  · exact absurd (h'.sooner rule hsooner) h.broken
  · exact absurd (h.sooner other hsooner) h'.broken

theorem holds_or_exists_isFirstBroken (before : List Value) (port : Value) :
    (∀ rule : PortRule, rule.Holds before port) ∨ ∃ rule : PortRule, rule.IsFirstBroken before port := by
  by_cases hobject : object.Holds before port
  · by_cases hnamed : named.Holds before port
    · by_cases hnumbered : numbered.Holds before port
      · by_cases hdistinct : distinct.Holds before port
        · exact .inl fun rule ↦ by cases rule <;> assumption
        · exact .inr ⟨distinct, hdistinct, by simp [sooner, hobject, hnamed, hnumbered]⟩
      · exact .inr ⟨numbered, hnumbered, by simp [sooner, hobject, hnamed]⟩
    · exact .inr ⟨named, hnamed, by simp [sooner, hobject]⟩
  · exact .inr ⟨object, hobject, by simp [sooner]⟩

end PortRule

/-! ## One port -/

namespace Validation

theorem isPortValue_iff (port : Value) : isPortValue (port.member "value") = true ↔ port.HasPortNumber := by
  have hleast : Number.ofInt portRange.1 = .finite 1 := by
    exact_mod_cast Number.ofRat_natCast (n := 1) (by norm_num)
  have hgreatest : Number.ofInt portRange.2 = .finite 65535 := by
    exact_mod_cast Number.ofRat_natCast (n := 65535) (by norm_num)
  unfold isPortValue Value.HasPortNumber
  split
  · next number hnumber =>
    rw [hleast, hgreatest, hnumber]
    simp only [Option.some.injEq, Value.number.injEq, Bool.and_eq_true]
    constructor
    · rintro ⟨⟨hinteger, hlow⟩, hhigh⟩
      obtain ⟨k, rfl⟩ := Number.exists_intCast_of_isInteger hinteger
      rw [Number.atMost_finite_iff] at hlow hhigh
      have hlow : 1 ≤ k := by exact_mod_cast hlow
      have hhigh : k ≤ 65535 := by exact_mod_cast hhigh
      refine ⟨k.toNat, by omega, by omega, ?_⟩
      rw [← Int.cast_natCast, Int.toNat_of_nonneg (by omega)]
    · rintro ⟨n, hlow, hhigh, rfl⟩
      rw [Number.atMost_finite_iff, Number.atMost_finite_iff]
      exact ⟨⟨Number.isInteger_natCast n, by exact_mod_cast hlow⟩, by exact_mod_cast hhigh⟩
  · next hother =>
    constructor
    · exact nofun
    · rintro ⟨n, -, -, hnumber⟩
      exact absurd hnumber (hother _)

def namesOf (ports : List Value) : List String := ports.map fun port ↦ (port.member "name").text

/-- What the check of a port that breaks a rule ends with: the flaw, if it can be told. -/
def told : Option Flaw → Except Failure (Option Flaw)
  | some flaw => .ok (some flaw)
  | none => .error noText

variable {before : List Value} {port : Value}

/-- Among ports with known names, a name is there exactly when a port has it. -/
theorem contains_namesOf_iff (hbefore : ∀ earlier ∈ before, earlier.HasPortName) (hport : port.HasPortName) :
    (namesOf before).contains (port.member "name").text = true ↔ ¬ PortRule.distinct.Holds before port := by
  have hsame : ∀ earlier ∈ before,
      (earlier.member "name").text = (port.member "name").text ↔ earlier.member "name" = port.member "name" := by
    intro earlier hearlier
    obtain ⟨first, hfirst⟩ := hbefore earlier hearlier
    obtain ⟨second, hsecond⟩ := hport
    rw [hfirst, hsecond]
    simp [Field.text, Field.text?]
  rw [List.contains_iff_mem, namesOf, List.mem_map, PortRule.Holds]
  push Not
  exact exists_congr fun earlier ↦ and_congr_right fun hearlier ↦ hsame earlier hearlier

theorem portFlaw_of_isFirstBroken (hbefore : ∀ earlier ∈ before, earlier.HasPortName) {rule : PortRule}
    (h : rule.IsFirstBroken before port) (index : Nat) :
    portFlaw (namesOf before) index port = told (rule.flaw? index port) := by
  obtain ⟨hbroken, hsooner⟩ := h
  cases rule with
  | object =>
    have hobject : port.isObject = false := Bool.eq_false_iff.mpr hbroken
    simp only [portFlaw, hobject]
    rfl
  | named =>
    have hobject : port.isObject = true := hsooner .object (by decide)
    have hnamed : PortName.isWritten (port.member "name") = false :=
      Bool.eq_false_iff.mpr ((PortName.isWritten_iff _).not.mpr hbroken)
    simp only [portFlaw, hobject, hnamed, shown, PortRule.flaw?]
    cases (port.member "name").shown? <;> rfl
  | numbered =>
    have hobject : port.isObject = true := hsooner .object (by decide)
    have hnamed : PortName.isWritten (port.member "name") = true :=
      (PortName.isWritten_iff _).mpr (hsooner .named (by decide))
    have hnumbered : isPortValue (port.member "value") = false :=
      Bool.eq_false_iff.mpr ((isPortValue_iff port).not.mpr hbroken)
    simp only [portFlaw, hobject, hnamed, hnumbered]
    rfl
  | distinct =>
    have hobject : port.isObject = true := hsooner .object (by decide)
    have hname : port.HasPortName := hsooner .named (by decide)
    have hnamed : PortName.isWritten (port.member "name") = true := (PortName.isWritten_iff _).mpr hname
    have hnumbered : isPortValue (port.member "value") = true :=
      (isPortValue_iff port).mpr (hsooner .numbered (by decide))
    have hseen : (namesOf before).contains (port.member "name").text = true :=
      (contains_namesOf_iff hbefore hname).mpr hbroken
    simp only [portFlaw, hobject, hnamed, hnumbered, hseen]
    rfl

theorem portFlaw_of_holds (hbefore : ∀ earlier ∈ before, earlier.HasPortName)
    (h : ∀ rule : PortRule, rule.Holds before port) (index : Nat) :
    portFlaw (namesOf before) index port = .ok none :=
  portFlaw_eq_none_iff.mpr
    ⟨h .object, (PortName.isWritten_iff _).mpr (h .named), (isPortValue_iff port).mpr (h .numbered),
      Bool.eq_false_iff.mpr ((contains_namesOf_iff hbefore (h .named)).not.mpr (not_not.mpr (h .distinct)))⟩

end Validation

/-! ## A list of ports -/

namespace PortRule

/-- The port at an index keeps all rules, given the ports before it. -/
def HoldAt (ports : List Value) (index : Nat) : Prop :=
  ∀ port, ports[index]? = some port → ∀ rule : PortRule, rule.Holds (ports.take index) port

/-- The first port of a list that breaks a rule given the ports before it, and the first rule that it breaks. -/
structure IsFirstBreak (ports : List Value) (index : Nat) (port : Value) (rule : PortRule) : Prop where
  found : ports[index]? = some port
  broken : rule.IsFirstBroken (ports.take index) port
  earlier : ∀ place < index, HoldAt ports place

variable {ports : List Value}

/-- There is one first break at most. -/
theorem IsFirstBreak.unique {index place : Nat} {port other : Value} {rule rule' : PortRule}
    (h : IsFirstBreak ports index port rule) (h' : IsFirstBreak ports place other rule') :
    index = place ∧ port = other ∧ rule = rule' := by
  have hindex : index = place := by
    rcases Nat.lt_trichotomy index place with hlt | heq | hgt
    · exact absurd (h'.earlier index hlt port h.found rule) h.broken.broken
    · exact heq
    · exact absurd (h.earlier place hgt other h'.found rule') h'.broken.broken
  subst hindex
  have hport : port = other := Option.some.inj (h.found.symm.trans h'.found)
  subst hport
  exact ⟨rfl, rfl, h.broken.unique h'.broken⟩

theorem holdAt_append_iff (before rest : List Value) {place : Nat} (h : place < before.length) :
    HoldAt (before ++ rest) place ↔ HoldAt before place := by
  unfold HoldAt
  rw [List.getElem?_append_left h, List.take_append_of_le_length h.le]

theorem holdAt_length_iff (before rest : List Value) (port : Value) :
    HoldAt (before ++ port :: rest) before.length ↔ ∀ rule : PortRule, rule.Holds before port := by
  unfold HoldAt
  rw [List.getElem?_append_right le_rfl, Nat.sub_self, List.getElem?_cons_zero, List.take_left]
  simp

theorem holdAt_of_length_le {index : Nat} (h : ports.length ≤ index) : HoldAt ports index := by
  intro port hport
  rw [List.getElem?_eq_none h] at hport
  cases hport

theorem forall_holdAt_concat_iff (before : List Value) (port : Value) :
    (∀ index, HoldAt (before ++ [port]) index) ↔
      (∀ index, HoldAt before index) ∧ ∀ rule : PortRule, rule.Holds before port := by
  rw [← holdAt_length_iff before [] port]
  constructor
  · intro h
    refine ⟨fun index ↦ ?_, h before.length⟩
    by_cases hindex : index < before.length
    · exact (holdAt_append_iff before [port] hindex).mp (h index)
    · exact holdAt_of_length_le (Nat.le_of_not_lt hindex)
  · rintro ⟨hbefore, hport⟩ index
    rcases Nat.lt_trichotomy index before.length with hlt | rfl | hgt
    · exact (holdAt_append_iff before [port] hlt).mpr (hbefore index)
    · exact hport
    · apply holdAt_of_length_le
      rw [List.length_append, List.length_singleton]
      exact hgt

theorem forall_holds_iff (before : List Value) (port : Value) :
    (∀ rule : PortRule, rule.Holds before port) ↔
      (port.isObject = true ∧ port.HasPortName ∧ port.HasPortNumber) ∧
        ∀ earlier ∈ before, earlier.member "name" ≠ port.member "name" := by
  constructor
  · exact fun h ↦ ⟨⟨h object, h named, h numbered⟩, h distinct⟩
  · rintro ⟨⟨hobject, hnamed, hnumbered⟩, hdistinct⟩ rule
    cases rule <;> assumption

/-- All ports of a list keep the rules exactly when they are objects with a known name and a number in range, and no two
have the same name. -/
theorem forall_holdAt_iff (ports : List Value) :
    (∀ index, HoldAt ports index) ↔
      (∀ port ∈ ports, port.isObject = true ∧ port.HasPortName ∧ port.HasPortNumber) ∧
        ports.Pairwise fun port other ↦ port.member "name" ≠ other.member "name" := by
  induction ports using List.reverseRecOn with
  | nil => simp [HoldAt]
  | append_singleton before port ih =>
    rw [forall_holdAt_concat_iff, ih, forall_holds_iff, List.forall_mem_append, List.forall_mem_singleton,
      List.pairwise_append]
    simp only [List.pairwise_singleton, List.mem_singleton, forall_eq, true_and]
    exact and_and_and_comm

end PortRule

namespace Validation

open PortRule

/-- After ports that keep the rules the check finds nothing when the others keep them too, and otherwise it ends
with the first rule that the first of them breaks. -/
theorem portsFlaw_cases {before : List Value} (hbefore : ∀ index, HoldAt before index) (rest : List Value) :
    (portsFlaw (namesOf before) before.length rest = .ok none ∧ ∀ index, HoldAt (before ++ rest) index) ∨
      ∃ index port rule, portsFlaw (namesOf before) before.length rest = told (rule.flaw? index port) ∧
        IsFirstBreak (before ++ rest) index port rule := by
  induction rest generalizing before with
  | nil => exact .inl ⟨rfl, by rwa [List.append_nil]⟩
  | cons port rest ih =>
    have hnamed : ∀ earlier ∈ before, earlier.HasPortName := by
      intro earlier hearlier
      exact (((forall_holdAt_iff before).mp hbefore).1 earlier hearlier).2.1
    rcases holds_or_exists_isFirstBroken before port with hholds | ⟨rule, hbroken⟩
    · have hnext := ih ((forall_holdAt_concat_iff before port).mpr ⟨hbefore, hholds⟩)
      have hstep : portsFlaw (namesOf before) before.length (port :: rest) =
          portsFlaw (namesOf (before ++ [port])) (before ++ [port]).length rest := by
        rw [portsFlaw, portFlaw_of_holds hnamed hholds]
        simp [namesOf]
      rwa [hstep, List.append_cons before port rest]
    · refine .inr ⟨before.length, port, rule, ?_, ?_⟩
      · rw [portsFlaw, portFlaw_of_isFirstBroken hnamed hbroken]
        cases rule.flaw? before.length port <;> rfl
      · exact
          { found := by simp
            broken := by rwa [List.take_left]
            earlier := fun place hplace ↦ (holdAt_append_iff before (port :: rest) hplace).mpr (hbefore place) }

theorem checkPorts_cases (ports : List Value) :
    (checkPorts (some (.list ports)) = .ok none ∧ ∀ index, HoldAt ports index) ∨
      ∃ index port rule, checkPorts (some (.list ports)) = told (rule.flaw? index port) ∧
        IsFirstBreak ports index port rule :=
  @portsFlaw_cases [] (fun index ↦ holdAt_of_length_le (Nat.zero_le index)) ports

theorem told_eq_some_iff {found : Option Flaw} {flaw : Flaw} : told found = .ok (some flaw) ↔ found = some flaw := by
  cases found <;> simp [told]

theorem told_eq_error_iff {found : Option Flaw} {failure : Failure} :
    told found = .error failure ↔ found = none ∧ failure = noText := by
  cases found <;> simp [told, eq_comm]

theorem told_ne_none (found : Option Flaw) : told found ≠ .ok none := by
  cases found <;> simp [told]

theorem checkPorts_eq_none_iff (ports : List Value) :
    checkPorts (some (.list ports)) = .ok none ↔ ∀ index, HoldAt ports index := by
  rcases checkPorts_cases ports with ⟨hnone, hholds⟩ | ⟨index, port, rule, htold, hbreak⟩
  · exact iff_of_true hnone hholds
  · rw [htold]
    apply iff_of_false (told_ne_none _)
    intro hholds
    exact hbreak.broken.broken (hholds index port hbreak.found rule)

/-- The check ends with something other than nothing exactly when that is what the first break leads to. -/
theorem checkPorts_eq_iff (ports : List Value) {answer : Except Failure (Option Flaw)} (hanswer : answer ≠ .ok none) :
    checkPorts (some (.list ports)) = answer ↔
      ∃ index port rule, IsFirstBreak ports index port rule ∧ told (rule.flaw? index port) = answer := by
  rcases checkPorts_cases ports with ⟨hnone, hholds⟩ | ⟨index, port, rule, htold, hbreak⟩
  · rw [hnone]
    apply iff_of_false hanswer.symm
    rintro ⟨index, port, rule, hbreak, -⟩
    exact hbreak.broken.broken (hholds index port hbreak.found rule)
  · rw [htold]
    constructor
    · exact fun hsame ↦ ⟨index, port, rule, hbreak, hsame⟩
    · rintro ⟨place, other, rule', hbreak', rfl⟩
      obtain ⟨rfl, rfl, rfl⟩ := hbreak.unique hbreak'
      rfl

theorem checkPorts_eq_some_iff (ports : List Value) (flaw : Flaw) :
    checkPorts (some (.list ports)) = .ok (some flaw) ↔
      ∃ index port rule, IsFirstBreak ports index port rule ∧ rule.flaw? index port = some flaw := by
  rw [checkPorts_eq_iff ports (by simp)]
  simp only [told_eq_some_iff]

theorem checkPorts_eq_error_iff (ports : List Value) (failure : Failure) :
    checkPorts (some (.list ports)) = .error failure ↔
      (∃ index port name, IsFirstBreak ports index port .named ∧ port.member "name" = some name ∧ name.Textless) ∧
        failure = noText := by
  rw [checkPorts_eq_iff ports (by simp)]
  simp only [told_eq_error_iff, flaw?_eq_none_iff]
  constructor
  · rintro ⟨index, port, rule, hbreak, ⟨rfl, name, hname, htextless⟩, hfailure⟩
    exact ⟨⟨index, port, name, hbreak, hname, htextless⟩, hfailure⟩
  · rintro ⟨⟨index, port, name, hbreak, hname, htextless⟩, hfailure⟩
    exact ⟨index, port, .named, hbreak, ⟨rfl, name, hname, htextless⟩, hfailure⟩

end Validation

/-! ## Looking a port up -/

namespace Details

theorem findPort_cons {first : Value} (h : first.isObject = true) (name : String) (rest : List Value) :
    findPort name (first :: rest) =
      if first.member "name" = some (.text name) then .ok (some first) else findPort name rest := by
  cases first with
  | object members => rfl
  | _ => cases h

/-- Among objects with different names, the port with a name is found, and nothing else. -/
theorem findPort_eq_some_iff {ports : List Value} (hobject : ∀ port ∈ ports, port.isObject = true)
    (hdistinct : ports.Pairwise fun port other ↦ port.member "name" ≠ other.member "name") (name : String)
    (port : Value) :
    findPort name ports = .ok (some port) ↔ port ∈ ports ∧ port.member "name" = some (.text name) := by
  induction ports with
  | nil => simp [findPort]
  | cons first rest ih =>
    obtain ⟨hfirst, hrest⟩ := List.forall_mem_cons.mp hobject
    obtain ⟨hothers, hdistinct⟩ := List.pairwise_cons.mp hdistinct
    rw [findPort_cons hfirst, List.mem_cons]
    by_cases hname : first.member "name" = some (.text name)
    · rw [if_pos hname]
      constructor
      · intro hfound
        obtain rfl : first = port := by simpa using hfound
        exact ⟨.inl rfl, hname⟩
      · rintro ⟨rfl | hport, hsame⟩
        · rfl
        · exact absurd (hname.trans hsame.symm) (hothers port hport)
    · rw [if_neg hname, ih hrest hdistinct]
      constructor
      · exact fun ⟨hport, hsame⟩ ↦ ⟨.inr hport, hsame⟩
      · rintro ⟨rfl | hport, hsame⟩
        · exact absurd hsame hname
        · exact ⟨hport, hsame⟩

end Details

/-- A list of ports is accepted exactly when every port is an object with a known name and an integer from 1 to 65535 as
its value, and no two have the same name.  Otherwise the check ends with the first port which breaks a rule given the
ports before it, and with the first rule that it breaks: it names them, unless the rule is that of known names and the
name has no text, where it fails.  Among accepted ports the one with a name is found whenever there is one. -/
theorem ports_checked_in_order (ports : List Value) :
    let answer := Validation.checkPorts (some (.list ports))
    (answer = .ok none ↔
      (∀ port ∈ ports, port.isObject = true ∧ port.HasPortName ∧ port.HasPortNumber) ∧
        ports.Pairwise fun port other ↦ port.member "name" ≠ other.member "name") ∧
      (∀ flaw, answer = .ok (some flaw) ↔
        ∃ index port rule, PortRule.IsFirstBreak ports index port rule ∧ rule.flaw? index port = some flaw) ∧
      ((∃ message, answer = .error (.misshapen message)) ↔
        ∃ index port name, PortRule.IsFirstBreak ports index port .named ∧ port.member "name" = some name ∧
          name.Textless) ∧
      (answer = .ok none → ∀ details : Details, details.ports = some (.list ports) →
        ∀ (name : PortName) (port : Value), details.getPort name.name = .ok (some port) ↔
          port ∈ ports ∧ port.member "name" = some (.text name.name)) := by
  intro answer
  have haccepted := (Validation.checkPorts_eq_none_iff ports).trans (PortRule.forall_holdAt_iff ports)
  refine ⟨haccepted, Validation.checkPorts_eq_some_iff ports, ?_, fun hnone details hports name port ↦ ?_⟩
  · simp only [answer, Validation.checkPorts_eq_error_iff, exists_and_left, and_iff_left_iff_imp]
    exact fun _ ↦ ⟨_, rfl⟩
  · obtain ⟨hrules, hdistinct⟩ := haccepted.mp hnone
    have hobject : ∀ port ∈ ports, port.isObject = true := fun port hport ↦ (hrules port hport).1
    rw [Details.getPort, hports]
    exact Details.findPort_eq_some_iff hobject hdistinct name.name port

/-- Two ports with different names are accepted, though their values agree, and the second is found by its name.  After
them an object as a name is quoted as an unknown one, but the check fails when the object has a member for its text. -/
theorem ports_checked_in_order_of_objects :
    let first : Value := .object [("name", .text "RATIS"), ("value", .number 9858)]
    let second : Value := .object [("value", .number 9858), ("name", .text "RATIS_SERVER")]
    let third (name : Members) : Value := .object [("name", .object name), ("value", .number 9858)]
    let details : Details := ⟨[("ports", .list [first, second])]⟩
    let check (ports : List Value) := Validation.checkPorts (some (.list ports))
    check [first, second] = .ok none ∧ details.getPort "RATIS_SERVER" = .ok (some second) ∧
      check [first, second, third []] =
        .ok (some ⟨"ports[2].name", "Unknown port name: [object Object]", .wrongValue⟩) ∧
      ∃ message, check [first, second, third [("toString", .number 1)]] = .error (.misshapen message) := by
  intro first second third details check
  have haccepted : check [first, second] = .ok none := by decide +kernel
  have hfound := (ports_checked_in_order [first, second]).2.2.2 haccepted details rfl
  have hsecond : second ∈ [first, second] := by simp
  exact ⟨haccepted, (hfound .ratisServer second).mpr ⟨hsecond, rfl⟩, by decide +kernel,
    "Cannot convert object to primitive value", by decide +kernel⟩

end ClusterMembership
