/-!
# Maps that remember the order of their keys

A store of the service is a map from texts to values that is listed in the order in which its keys
arrived.  Storing under a known key keeps the key's place; a key that was erased and stored again goes
to the end.  `Association` gives the two changes on plain lists of pairs, which the members of a JSON
object share, and `OrderedMap` adds that no key occurs twice.

Each operation is described through one look-up equation (`get?_insert`, `get?_erase`) and one equation
on the list of keys (`keys_insert`, `keys_erase`).
-/

namespace ClusterMembership

variable {α : Type}

namespace Association

/-- Replace the value under a key where it stands, or add the pair at the end. -/
def put (key : String) (value : α) : List (String × α) → List (String × α)
  | [] => [(key, value)]
  | entry :: rest =>
    if entry.1 = key then (key, value) :: rest else entry :: put key value rest

def without (key : String) (entries : List (String × α)) : List (String × α) :=
  entries.filter fun entry ↦ entry.1 ≠ key

def find? (key : String) : List (String × α) → Option α
  | [] => none
  | entry :: rest => if entry.1 = key then some entry.2 else find? key rest

theorem find?_put (key other : String) (value : α) (entries : List (String × α)) :
    find? other (put key value entries) =
      if key = other then some value else find? other entries := by
  induction entries with
  | nil => simp [put, find?]
  | cons entry rest ih =>
    by_cases hkey : entry.1 = key
    · by_cases hother : key = other <;> simp [put, find?, hkey, hother]
    · have hput : put key value (entry :: rest) = entry :: put key value rest := by
        simp [put, hkey]
      by_cases hentry : entry.1 = other
      · have hother : key ≠ other := fun h ↦ hkey (hentry.trans h.symm)
        simp only [hput, find?, if_pos hentry, if_neg hother]
      · simp only [hput, find?, if_neg hentry, ih]

theorem without_cons_of_eq {key : String} {entry : String × α} (h : entry.1 = key)
    (rest : List (String × α)) : without key (entry :: rest) = without key rest := by
  simp [without, h]

theorem without_cons_of_ne {key : String} {entry : String × α} (h : entry.1 ≠ key)
    (rest : List (String × α)) : without key (entry :: rest) = entry :: without key rest := by
  simp [without, h]

theorem find?_without (key other : String) (entries : List (String × α)) :
    find? other (without key entries) = if key = other then none else find? other entries := by
  induction entries with
  | nil => simp [without, find?]
  | cons entry rest ih =>
    by_cases hkey : entry.1 = key
    · have hwithout := without_cons_of_eq hkey rest
      by_cases hother : key = other
      · rw [hwithout, ih, if_pos hother, if_pos hother]
      · have hentry : entry.1 ≠ other := fun h ↦ hother (hkey.symm.trans h)
        simp only [hwithout, ih, find?, if_neg hentry]
    · have hwithout := without_cons_of_ne hkey rest
      by_cases hentry : entry.1 = other
      · have hother : key ≠ other := fun h ↦ hkey (hentry.trans h.symm)
        simp only [hwithout, find?, if_pos hentry, if_neg hother]
      · simp only [hwithout, find?, if_neg hentry, ih]

theorem keys_put (key : String) (value : α) (entries : List (String × α)) :
    (put key value entries).map Prod.fst =
      if key ∈ entries.map Prod.fst then entries.map Prod.fst
      else entries.map Prod.fst ++ [key] := by
  induction entries with
  | nil => simp [put]
  | cons entry rest ih =>
    by_cases hkey : entry.1 = key
    · simp [put, hkey]
    · have hkey' : key ≠ entry.1 := fun h ↦ hkey h.symm
      by_cases hmem : key ∈ rest.map Prod.fst
      · simp only [put, hkey, if_false, List.map_cons, ih, hmem, if_true, List.mem_cons,
          or_true]
      · simp only [put, hkey, if_false, List.map_cons, ih, hmem, List.mem_cons, hkey', or_self,
          List.cons_append]

theorem keys_without (key : String) (entries : List (String × α)) :
    (without key entries).map Prod.fst = (entries.map Prod.fst).filter (· ≠ key) := by
  simp [without, List.filter_map, Function.comp_def]

theorem isSome_find?_iff (key : String) (entries : List (String × α)) :
    (find? key entries).isSome = true ↔ key ∈ entries.map Prod.fst := by
  induction entries with
  | nil => simp [find?]
  | cons entry rest ih =>
    by_cases hkey : entry.1 = key
    · simp [find?, hkey]
    · have hkey' : key ≠ entry.1 := fun h ↦ hkey h.symm
      simp only [find?, hkey, if_false, ih, List.map_cons, List.mem_cons, hkey', false_or]

theorem put_of_find?_eq_some {key : String} {value : α} {entries : List (String × α)}
    (h : find? key entries = some value) : put key value entries = entries := by
  induction entries with
  | nil => simp [find?] at h
  | cons entry rest ih =>
    by_cases hkey : entry.1 = key
    · have hvalue : entry.2 = value := by simpa [find?, hkey] using h
      rw [put, if_pos hkey, ← hvalue, ← hkey]
    · have hrest : find? key rest = some value := by simpa [find?, hkey] using h
      rw [put, if_neg hkey, ih hrest]

theorem put_of_find?_eq_none {key : String} {value : α} {entries : List (String × α)}
    (h : find? key entries = none) : put key value entries = entries ++ [(key, value)] := by
  induction entries with
  | nil => rfl
  | cons entry rest ih =>
    by_cases hkey : entry.1 = key
    · simp [find?, hkey] at h
    · have hrest : find? key rest = none := by simpa [find?, hkey] using h
      rw [put, if_neg hkey, ih hrest, List.cons_append]

theorem without_of_find?_eq_none {key : String} {entries : List (String × α)}
    (h : find? key entries = none) : without key entries = entries := by
  induction entries with
  | nil => rfl
  | cons entry rest ih =>
    by_cases hkey : entry.1 = key
    · simp [find?, hkey] at h
    · have hrest : find? key rest = none := by simpa [find?, hkey] using h
      rw [without_cons_of_ne hkey, ih hrest]

/-- Of two values put under one key the last counts. -/
theorem put_put (key : String) (value last : α) (entries : List (String × α)) :
    put key last (put key value entries) = put key last entries := by
  induction entries with
  | nil => simp [put]
  | cons entry rest ih => by_cases hkey : entry.1 = key <;> simp [put, hkey, ih]

/-- Values put under two keys may change places when one key has its place already. -/
theorem put_comm {key other : String} (hne : key ≠ other) (value added : α) {entries : List (String × α)}
    (h : find? key entries ≠ none) :
    put key value (put other added entries) = put other added (put key value entries) := by
  induction entries with
  | nil => exact absurd rfl h
  | cons entry rest ih =>
    by_cases hkey : entry.1 = key
    · have hother : entry.1 ≠ other := fun hentry ↦ hne (hkey.symm.trans hentry)
      simp [put, hkey, hne]
    · have hrest : find? key rest ≠ none := by simpa [find?, hkey] using h
      by_cases hother : entry.1 = other
      · simp [put, hother, Ne.symm hne]
      · simp [put, hkey, hother, ih hrest]

theorem without_put (key : String) (value : α) (entries : List (String × α)) :
    without key (put key value entries) = without key entries := by
  induction entries with
  | nil => simp [put, without]
  | cons entry rest ih =>
    by_cases hkey : entry.1 = key
    · have hput : (key, value).1 = key := rfl
      rw [put, if_pos hkey, without_cons_of_eq hput, without_cons_of_eq hkey]
    · rw [put, if_neg hkey, without_cons_of_ne hkey, without_cons_of_ne hkey, ih]

theorem without_put_of_ne {key other : String} (hne : key ≠ other) (value : α)
    (entries : List (String × α)) :
    without key (put other value entries) = put other value (without key entries) := by
  induction entries with
  | nil => simp [put, without, Ne.symm hne]
  | cons entry rest ih =>
    by_cases hother : entry.1 = other
    · have hkey : entry.1 ≠ key := fun h ↦ hne (h.symm.trans hother)
      have hput : (other, value).1 ≠ key := Ne.symm hne
      rw [put, if_pos hother, without_cons_of_ne hkey, without_cons_of_ne hput, put, if_pos hother]
    · rw [put, if_neg hother]
      by_cases hkey : entry.1 = key
      · rw [without_cons_of_eq hkey, without_cons_of_eq hkey, ih]
      · rw [without_cons_of_ne hkey, without_cons_of_ne hkey, put, if_neg hother, ih]

theorem without_comm (key other : String) (entries : List (String × α)) :
    without key (without other entries) = without other (without key entries) := by
  unfold without
  rw [List.filter_filter, List.filter_filter]
  exact List.filter_congr fun entry _ ↦ Bool.and_comm _ _

theorem mem_of_find?_eq_some {key : String} {value : α} {entries : List (String × α)}
    (h : find? key entries = some value) : (key, value) ∈ entries := by
  induction entries with
  | nil => simp [find?] at h
  | cons entry rest ih =>
    by_cases hkey : entry.1 = key
    · have hvalue : entry.2 = value := by simpa [find?, hkey] using h
      simp [← hvalue, ← hkey]
    · have hrest : find? key rest = some value := by simpa [find?, hkey] using h
      exact List.mem_cons_of_mem _ (ih hrest)

theorem find?_eq_some_of_mem {key : String} {value : α} {entries : List (String × α)}
    (hdistinct : (entries.map Prod.fst).Nodup) (h : (key, value) ∈ entries) :
    find? key entries = some value := by
  induction entries with
  | nil => simp at h
  | cons entry rest ih =>
    rw [List.map_cons, List.nodup_cons] at hdistinct
    rcases List.mem_cons.mp h with hentry | hrest
    · simp [find?, ← hentry]
    · have hkey : entry.1 ≠ key := by
        intro hentry
        exact hdistinct.1 (hentry ▸ List.mem_map_of_mem (f := Prod.fst) hrest)
      simp [find?, hkey, ih hdistinct.2 hrest]

end Association

/-- Pairs in the order in which their keys arrived, each key once. -/
structure OrderedMap (α : Type) where
  entries : List (String × α)
  distinct : (entries.map Prod.fst).Nodup
  deriving DecidableEq

namespace OrderedMap

def empty : OrderedMap α := ⟨[], by simp⟩

instance : Inhabited (OrderedMap α) := ⟨empty⟩

def get? (map : OrderedMap α) (key : String) : Option α := Association.find? key map.entries

def contains (map : OrderedMap α) (key : String) : Bool := (map.get? key).isSome

/-- Store a value; a key that is there already keeps its place. -/
def insert (map : OrderedMap α) (key : String) (value : α) : OrderedMap α where
  entries := Association.put key value map.entries
  distinct := by
    rw [Association.keys_put]
    have hmap := map.distinct
    split
    · exact hmap
    · next hkey =>
      rw [List.nodup_append]
      refine ⟨hmap, by simp, ?_⟩
      intro a ha b hb hab
      rw [List.mem_singleton] at hb
      exact hkey (hb ▸ hab ▸ ha)

def erase (map : OrderedMap α) (key : String) : OrderedMap α where
  entries := Association.without key map.entries
  distinct := by
    rw [Association.keys_without]
    exact map.distinct.filter _

def keys (map : OrderedMap α) : List String := map.entries.map Prod.fst

def values (map : OrderedMap α) : List α := map.entries.map Prod.snd

def size (map : OrderedMap α) : Nat := map.entries.length

def ofList (pairs : List (String × α)) : OrderedMap α :=
  pairs.foldl (fun map pair ↦ map.insert pair.1 pair.2) empty

/-- Store a value, or forget the key when there is none. -/
def restore (map : OrderedMap α) (key : String) : Option α → OrderedMap α
  | some value => map.insert key value
  | none => map.erase key

@[simp] theorem get?_empty (key : String) : (empty : OrderedMap α).get? key = none := rfl

theorem get?_insert (map : OrderedMap α) (key other : String) (value : α) :
    (map.insert key value).get? other = if key = other then some value else map.get? other :=
  Association.find?_put key other value map.entries

theorem get?_erase (map : OrderedMap α) (key other : String) :
    (map.erase key).get? other = if key = other then none else map.get? other :=
  Association.find?_without key other map.entries

theorem get?_restore (map : OrderedMap α) (key other : String) (value : Option α) :
    (map.restore key value).get? other = if key = other then value else map.get? other := by
  cases value with
  | none => exact get?_erase map key other
  | some value => exact get?_insert map key other value

theorem contains_iff (map : OrderedMap α) (key : String) :
    map.contains key = true ↔ ∃ value, map.get? key = some value :=
  Option.isSome_iff_exists

theorem get?_eq_some_iff (map : OrderedMap α) (key : String) (value : α) :
    map.get? key = some value ↔ (key, value) ∈ map.entries :=
  ⟨Association.mem_of_find?_eq_some, Association.find?_eq_some_of_mem map.distinct⟩

theorem mem_values_iff (map : OrderedMap α) (value : α) :
    value ∈ map.values ↔ ∃ key, map.get? key = some value := by
  simp only [values, List.mem_map, Prod.exists, get?_eq_some_iff, exists_eq_right]

theorem insert_of_get?_eq_some {map : OrderedMap α} {key : String} {value : α}
    (h : map.get? key = some value) : map.insert key value = map := by
  unfold insert
  congr 1
  exact Association.put_of_find?_eq_some h

theorem erase_of_get?_eq_none {map : OrderedMap α} {key : String} (h : map.get? key = none) :
    map.erase key = map := by
  unfold erase
  congr 1
  exact Association.without_of_find?_eq_none h

/-- What was stored under a key goes with it. -/
theorem erase_insert (map : OrderedMap α) (key : String) (value : α) :
    (map.insert key value).erase key = map.erase key := by
  unfold erase insert
  congr 1
  exact Association.without_put key value map.entries

/-- Of two values stored under one key the last counts. -/
theorem insert_insert (map : OrderedMap α) (key : String) (value last : α) :
    (map.insert key value).insert key last = map.insert key last := by
  unfold insert
  congr 1
  exact Association.put_put key value last map.entries

/-- To put back what was stored under a key makes up for a value stored in between, the order included. -/
theorem restore_insert (map : OrderedMap α) (key : String) (value : α) :
    (map.insert key value).restore key (map.get? key) = map := by
  cases h : map.get? key with
  | none => exact (erase_insert map key value).trans (erase_of_get?_eq_none h)
  | some last => exact (insert_insert map key value last).trans (insert_of_get?_eq_some h)

theorem keys_insert (map : OrderedMap α) (key : String) (value : α) :
    (map.insert key value).keys = if key ∈ map.keys then map.keys else map.keys ++ [key] :=
  Association.keys_put key value map.entries

theorem keys_erase (map : OrderedMap α) (key : String) :
    (map.erase key).keys = map.keys.filter (· ≠ key) :=
  Association.keys_without key map.entries

theorem contains_iff_mem_keys (map : OrderedMap α) (key : String) :
    map.contains key = true ↔ key ∈ map.keys :=
  Association.isSome_find?_iff key map.entries

theorem nodup_keys (map : OrderedMap α) : map.keys.Nodup := map.distinct

/-- Maps with the same keys are of one size, whatever they hold under them. -/
theorem size_eq_of_contains_iff {β : Type} {map : OrderedMap α} {other : OrderedMap β}
    (h : ∀ key, map.contains key = true ↔ other.contains key = true) : map.size = other.size := by
  have hperm : map.keys.Perm other.keys := by
    rw [List.perm_ext_iff_of_nodup map.nodup_keys other.nodup_keys]
    intro key
    rw [← contains_iff_mem_keys, ← contains_iff_mem_keys]
    exact h key
  calc
    map.size = map.keys.length := (List.length_map _).symm
    _ = other.keys.length := hperm.length_eq
    _ = other.size := List.length_map _

end OrderedMap

end ClusterMembership
