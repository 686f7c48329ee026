import ClusterMembership.Proofs.StoredShape
import ClusterMembership.Store.Registry

/-!
# What an action on one datanode does to the registry

Five actions of the registry take an identifier and replace the record of that datanode.  They refuse an unknown
identifier.  Otherwise the record that they hand back is stored under the identifier of its own details, not under
the one that was asked for.  Four of them cannot change the identifier in the details, and new details may bring
another one: then the datanode that was asked for keeps its old record, and the new record stands, or takes the place
of the record that stood, under the identifier that the details bring.
-/

namespace ClusterMembership

namespace Registry

/-! ## The actions -/

/-- A change of the record of one datanode, with what it is made from. -/
inductive RecordChange where
  | details (given : Details) (now : Instant)
  | operational (state expiry : Field) (now : Instant)
  | heartbeat (now : Instant) (layout : Option LayoutReport)
  | health (reached : Health) (now : Instant)
  | storage (usage : StorageUsage) (now : Instant)
  deriving DecidableEq

namespace RecordChange

/-- The record that a change makes of a record. -/
def applied : RecordChange → NodeRecord → NodeRecord
  | .details given now => detailed given now
  | .operational state expiry now => restated state (expiryOrNever expiry) now
  | .heartbeat now layout => heard layout now
  | .health reached now => classified reached now
  | .storage usage now => stocked usage now

/-- The change does not bring an identifier other than the one of the datanode it is meant for. -/
def Keeps (id : String) : RecordChange → Prop
  | .details given _ => given.id = id
  | _ => True

end RecordChange

def perform (registry : Registry) (id : String) : RecordChange → Except Failure (Registry × NodeRecord)
  | .details details now => registry.updateDetails id details now
  | .operational state expiry now => registry.setOperational id state expiry now
  | .heartbeat now layout => registry.recordHeartbeat id now layout
  | .health health now => registry.setHealth id health now
  | .storage storage now => registry.updateStorage id storage now

inductive Action where
  | upsert (record : NodeRecord)
  | remove (id : String)
  | change (id : String) (change : RecordChange)
  | clear
  deriving DecidableEq

/-- The registry that an action leaves, given what it answers; one that is refused leaves what was there. -/
def left (registry : Registry) : Except Failure (Registry × NodeRecord) → Registry
  | .ok (changed, _) => changed
  | .error _ => registry

def act (registry : Registry) : Action → Registry
  | .upsert record => registry.upsert record
  | .remove id => registry.left (registry.remove id)
  | .change id change => registry.left (registry.perform id change)
  | .clear => empty

def after (registry : Registry) (actions : List Action) : Registry := actions.foldl act registry

def ids (registry : Registry) : List String := registry.records.keys

/-! ## Records stand under their own identifiers -/

/-- Every record stands under the identifier of its details. -/
def IsFiled (registry : Registry) : Prop := ∀ {id record}, registry.get? id = some record → record.id = id

variable {registry : Registry} {id : String} {record : NodeRecord}

theorem isFiled_empty : empty.IsFiled := by
  intro id record hrecord
  cases hrecord

theorem IsFiled.upsert (hfiled : registry.IsFiled) (stored : NodeRecord) : (registry.upsert stored).IsFiled := by
  intro id record hrecord
  rw [get?_upsert] at hrecord
  split at hrecord
  · next hid =>
    cases hrecord
    exact hid
  · exact hfiled hrecord

theorem IsFiled.erase (hfiled : registry.IsFiled) (erased : String) : (registry.erase erased).IsFiled := by
  intro id record hrecord
  rw [get?_erase] at hrecord
  split at hrecord
  · cases hrecord
  · exact hfiled hrecord

/-- A record that is stored as it stands changes nothing. -/
theorem IsFiled.upsert_self (hfiled : registry.IsFiled) (hrecord : registry.get? id = some record) :
    registry.upsert record = registry := by
  have hinsert : registry.records.insert id record = registry.records :=
    OrderedMap.insert_of_get?_eq_some hrecord
  rw [Registry.upsert, hfiled hrecord, hinsert]

/-! ## The five actions as one -/

theorem require_of_get?_eq_none (habsent : registry.get? id = none) :
    registry.require id = .error (.service (.nodeNotFound id)) := by
  simp only [require, habsent]

theorem require_of_get?_eq_some (hrecord : registry.get? id = some record) : registry.require id = .ok record := by
  simp only [require, hrecord]

theorem change_of_get?_eq_some (hrecord : registry.get? id = some record) (changed : NodeRecord → NodeRecord) :
    registry.change id changed = .ok (registry.upsert (changed record), changed record) := by
  simp only [Registry.change, require_of_get?_eq_some hrecord, Except.map, amend, hrecord]

/-- An unknown datanode is refused, whatever the change. -/
theorem perform_of_get?_eq_none (habsent : registry.get? id = none) (change : RecordChange) :
    registry.perform id change = .error (.service (.nodeNotFound id)) := by
  have hchange : ∀ changed, registry.change id changed = .error (.service (.nodeNotFound id)) := by
    intro changed
    rw [Registry.change, require_of_get?_eq_none habsent, Except.map]
  cases change with
  | health health now => rw [perform, setHealth, require_of_get?_eq_none habsent, Except.map]
  | _ => exact hchange _

/-- The changed record of a known datanode is stored under the identifier of the changed record.  A health that the
datanode has already is not written, which comes to the same since the record stands under its own identifier. -/
theorem perform_of_get?_eq_some (hfiled : registry.IsFiled) (hrecord : registry.get? id = some record)
    (change : RecordChange) :
    registry.perform id change = .ok (registry.upsert (change.applied record), change.applied record) := by
  cases change with
  | health health now =>
    rw [perform, setHealth, require_of_get?_eq_some hrecord, Except.map, RecordChange.applied]
    by_cases hsame : record.status.health = health
    · rw [if_pos hsame, classified, if_pos hsame, hfiled.upsert_self hrecord]
    · rw [if_neg hsame]
  | _ => exact change_of_get?_eq_some hrecord _

theorem IsFiled.act (hfiled : registry.IsFiled) (action : Action) : (registry.act action).IsFiled := by
  cases action with
  | upsert record => exact hfiled.upsert record
  | remove id =>
    rw [Registry.act, remove]
    cases hrecord : registry.get? id with
    | none =>
      rw [require_of_get?_eq_none hrecord]
      exact hfiled
    | some record =>
      rw [require_of_get?_eq_some hrecord]
      exact hfiled.erase id
  | change id change =>
    rw [Registry.act]
    cases hrecord : registry.get? id with
    | none =>
      rw [perform_of_get?_eq_none hrecord]
      exact hfiled
    | some record =>
      rw [perform_of_get?_eq_some hfiled hrecord]
      exact hfiled.upsert _
  | clear => exact isFiled_empty

theorem IsFiled.after (hfiled : registry.IsFiled) (actions : List Action) : (registry.after actions).IsFiled := by
  induction actions generalizing registry with
  | nil => exact hfiled
  | cons action rest ih => exact ih (hfiled.act action)

/-! ## Changed records -/

namespace RecordChange

/-- No change touches the time of the registration. -/
theorem registeredAt_applied (change : RecordChange) (record : NodeRecord) :
    (change.applied record).registeredAt = record.registeredAt := by
  cases change with
  | health health now =>
    rw [applied, classified]
    split <;> rfl
  | _ => rfl

/-- A changed record has the identifier of the record it was made from, except under details that bring another. -/
theorem id_applied_eq_iff (change : RecordChange) (record : NodeRecord) :
    (change.applied record).id = record.id ↔ change.Keeps record.id := by
  cases change with
  | details details now =>
    rw [applied, NodeRecord.id, detailed, Details.id_withOperational, Keeps]
  | operational state expiry now =>
    have hid : (restated state (expiryOrNever expiry) now record).id = record.id := Details.id_withOperational ..
    exact iff_of_true hid trivial
  | heartbeat now layout => exact iff_of_true rfl trivial
  | health health now =>
    rw [applied, classified]
    split <;> exact iff_of_true rfl trivial
  | storage storage now => exact iff_of_true rfl trivial

end RecordChange

/-! ## Replaced records and records that go astray -/

/-- One registry differs from another by the record of one datanode at most: the identifiers and their order are the
same, and so is every other record. -/
structure Replaces (before : Registry) (id : String) (record : NodeRecord) (after : Registry) : Prop where
  ids : after.ids = before.ids
  others : ∀ other, other ≠ id → after.get? other = before.get? other
  stored : after.get? id = some record

/-- The record meant for one datanode stands under another identifier, in whose place it may have been or to whose end
it was added. -/
structure Misfiles (before : Registry) (id : String) (record : NodeRecord) (after : Registry) : Prop where
  elsewhere : record.id ≠ id
  kept : after.get? id = before.get? id
  stored : after.get? record.id = some record
  others : ∀ other, other ≠ record.id → after.get? other = before.get? other
  ids : after.ids = if before.contains record.id then before.ids else before.ids ++ [record.id]

theorem contains_iff_mem_ids (registry : Registry) (id : String) : registry.contains id = true ↔ id ∈ registry.ids :=
  registry.records.contains_iff_mem_keys id

theorem ids_upsert (registry : Registry) (record : NodeRecord) :
    (registry.upsert record).ids =
      if registry.contains record.id then registry.ids else registry.ids ++ [record.id] := by
  simp only [contains_iff_mem_ids]
  exact registry.records.keys_insert record.id record

theorem get?_upsert_of_ne (registry : Registry) {record : NodeRecord} {other : String} (hne : other ≠ record.id) :
    (registry.upsert record).get? other = registry.get? other := by
  rw [get?_upsert, if_neg (Ne.symm hne)]

theorem get?_upsert_self (registry : Registry) (record : NodeRecord) :
    (registry.upsert record).get? record.id = some record := by
  rw [get?_upsert, if_pos rfl]

/-- A record that is stored under a known identifier of its own replaces the one that stood there. -/
theorem replaces_upsert {stored : NodeRecord} (hrecord : registry.get? id = some record) (hid : stored.id = id) :
    registry.Replaces id stored (registry.upsert stored) := by
  subst hid
  have hcontains := (registry.contains_iff stored.id).mpr ⟨record, hrecord⟩
  exact {
    ids := by rw [ids_upsert, if_pos hcontains]
    others := fun _ hne ↦ registry.get?_upsert_of_ne hne
    stored := registry.get?_upsert_self stored }

theorem misfiles_upsert {stored : NodeRecord} (hid : stored.id ≠ id) :
    registry.Misfiles id stored (registry.upsert stored) where
  elsewhere := hid
  kept := registry.get?_upsert_of_ne hid.symm
  stored := registry.get?_upsert_self stored
  others := fun _ hne ↦ registry.get?_upsert_of_ne hne
  ids := registry.ids_upsert stored

/-- A record cannot both replace a record and stand under another identifier, as long as records stand under their
own. -/
theorem Misfiles.not_replaces {after : Registry} (h : registry.Misfiles id record after) (hfiled : registry.IsFiled) :
    ¬ registry.Replaces id record after := by
  intro hreplaces
  have hold : registry.get? id = some record := h.kept.symm.trans hreplaces.stored
  exact h.elsewhere (hfiled hold)

/-- In every registry that actions can lead to, an action on one datanode refuses an unknown identifier and leaves the
registry as it was.  For a known one it hands back the changed record, which keeps the time of the registration.  That
record replaces the one that stood under the identifier exactly if the change brings no other identifier: then the
identifiers, their order and the other records stay.  Details that bring another identifier leave the record as it
was, and what is handed back stands under the identifier that they bring. -/
theorem perform_replaces_iff (actions : List Action) (id : String) (change : RecordChange) :
    let registry := empty.after actions
    (registry.get? id = none →
      registry.perform id change = .error (.service (.nodeNotFound id)) ∧
        registry.act (.change id change) = registry) ∧
    (∀ record, registry.get? id = some record →
      registry.perform id change = .ok (registry.act (.change id change), change.applied record) ∧
        (change.applied record).registeredAt = record.registeredAt ∧
        (registry.Replaces id (change.applied record) (registry.act (.change id change)) ↔ change.Keeps id) ∧
        (¬ change.Keeps id →
          registry.Misfiles id (change.applied record) (registry.act (.change id change)))) := by
  intro registry
  have hfiled : registry.IsFiled := isFiled_empty.after actions
  refine ⟨fun habsent ↦ ?_, fun record hrecord ↦ ?_⟩
  · have hrefused := perform_of_get?_eq_none habsent change
    exact ⟨hrefused, by rw [act, hrefused, left]⟩
  · have hperform := perform_of_get?_eq_some hfiled hrecord change
    have hact : registry.act (.change id change) = registry.upsert (change.applied record) := by
      rw [act, hperform, left]
    have hid : (change.applied record).id = id ↔ change.Keeps id := by
      have happlied := change.id_applied_eq_iff record
      rwa [hfiled hrecord] at happlied
    rw [hact]
    refine ⟨hperform, change.registeredAt_applied record, ?_⟩
    by_cases hkept : (change.applied record).id = id
    · have hreplaces := replaces_upsert hrecord hkept
      exact ⟨iff_of_true hreplaces (hid.mp hkept), fun hastray ↦ absurd (hid.mp hkept) hastray⟩
    · have hmisfiles : registry.Misfiles id _ (registry.upsert (change.applied record)) := misfiles_upsert hkept
      exact ⟨iff_of_false (hmisfiles.not_replaces hfiled) (mt hid.mpr hkept), fun _ ↦ hmisfiles⟩

/-- The details of one datanode are replaced by those of another: the record of the other goes, and the one that takes
its place was registered when the first one was. -/
theorem perform_misfiles_details_of_another :
    let first := NodeRecord.registered (Details.whole "dn1") default 100
    let second := NodeRecord.registered (Details.whole "dn2") default 200
    let actions := [Action.upsert first, .upsert second]
    let change := RecordChange.details (Details.whole "dn2") 300
    let changed := (empty.after actions).act (.change "dn1" change)
    (empty.after actions).get? "dn1" = some first ∧ ¬ change.Keeps "dn1" ∧
      (empty.after actions).Misfiles "dn1" (change.applied first) changed ∧
      changed.get? "dn1" = some first ∧ (changed.get? "dn2").map NodeRecord.registeredAt = some 100 := by
  intro first second actions change changed
  have hrecord : (empty.after actions).get? "dn1" = some first := by decide +kernel
  have hother : ¬ change.Keeps "dn1" := by
    show (Details.whole "dn2").id ≠ "dn1"
    decide +kernel
  obtain ⟨-, hknown⟩ := perform_replaces_iff actions "dn1" change
  exact ⟨hrecord, hother, (hknown first hrecord).2.2.2 hother, by decide +kernel, by decide +kernel⟩

end Registry

end ClusterMembership
