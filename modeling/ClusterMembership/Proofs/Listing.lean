import Mathlib.Data.Prod.Lex
import ClusterMembership.Proofs.History
import ClusterMembership.Proofs.TextOrder
import ClusterMembership.Proofs.Waiting

/-!
# Listings

A name is listed by its ranks without regard to case and, where these agree, by its cases.  Rank and case together
give a character back, so names are in a linear order, and so are items by host name and then by identifier.  The
order of names of letters, digits, hyphens and points is stated once more as a rule on their characters.  A listing is
sorted and holds one item for each record that satisfies the filter.  As no two records have the same identifier, there
is one such list only: the order in which the records came into the registry leaves no trace in it.
-/

namespace ClusterMembership

/-- Maps that answer every look-up alike hold the same pairs. -/
theorem OrderedMap.perm_entries_of_get?_eq {α : Type} {map other : OrderedMap α}
    (h : ∀ key, map.get? key = other.get? key) : map.entries.Perm other.entries := by
  apply (List.perm_ext_iff_of_nodup map.distinct.of_map other.distinct.of_map).mpr
  intro entry
  calc
    entry ∈ map.entries ↔ map.get? entry.1 = some entry.2 := (map.get?_eq_some_iff entry.1 entry.2).symm
    _ ↔ other.get? entry.1 = some entry.2 := by rw [h]
    _ ↔ entry ∈ other.entries := other.get?_eq_some_iff entry.1 entry.2

namespace Text

/-! ## Ranks and cases -/

theorem listingRank_eq (c : Char) :
    listingRank c =
      if c.toNat = 45 then 0
      else if c.toNat = 46 then 1
      else if 48 ≤ c.toNat ∧ c.toNat ≤ 57 then c.toNat - 46
      else if 97 ≤ c.toNat ∧ c.toNat ≤ 122 then c.toNat - 85
      else if 65 ≤ c.toNat ∧ c.toNat ≤ 90 then c.toNat - 53
      else 64 + c.toNat := by
  have hhyphen : c = '-' ↔ c.toNat = 45 := Char.toNat_inj.symm
  have hpoint : c = '.' ↔ c.toNat = 46 := Char.toNat_inj.symm
  have hzero : '0'.toNat = 48 := rfl
  have hletter : 'a'.toNat = 97 := rfl
  unfold listingRank
  simp only [hhyphen, hpoint, isDigit_iff, isLetter_iff, toNat_toLower, hzero, hletter]
  grind

theorem caseRank_eq (c : Char) : caseRank c = if 65 ≤ c.toNat ∧ c.toNat ≤ 90 then 1 else 0 := by
  unfold caseRank
  simp only [Bool.and_eq_true, decide_eq_true_eq]
  rfl

/-- The code of the character that has a rank and a case. -/
def codeAt (rank letterCase : Nat) : Nat :=
  if rank < 2 then rank + 45
  else if rank < 12 then rank + 46
  else if rank < 38 then rank + 85 - 32 * letterCase
  else rank - 64

theorem codeAt_listingRank (c : Char) : codeAt (listingRank c) (caseRank c) = c.toNat := by
  rw [listingRank_eq, caseRank_eq]
  unfold codeAt
  grind

/-- Of two characters of one rank, one is listed before the other when it is its small letter. -/
theorem caseRank_lt_iff {c d : Char} (hrank : listingRank c = listingRank d) :
    caseRank c < caseRank d ↔ c = d.toLower ∧ c ≠ d := by
  have hcase := caseRank_eq d
  have hlower := toNat_toLower d
  by_cases hcapital : 65 ≤ d.toNat ∧ d.toNat ≤ 90
  · rw [if_pos hcapital] at hcase hlower
    constructor
    · intro hlt
      have hsmall : caseRank c = 0 := by omega
      have hcode := codeAt_listingRank c
      rw [hsmall, hrank, listingRank_eq] at hcode
      refine ⟨Char.toNat_inj.mp ?_, fun h ↦ absurd hlt (h ▸ Nat.lt_irrefl _)⟩
      unfold codeAt at hcode
      grind
    · rintro ⟨rfl, -⟩
      rw [caseRank_eq, hlower, hcase, if_neg (by omega)]
      exact Nat.zero_lt_one
  · rw [if_neg hcapital] at hcase hlower
    rw [hcase, Char.toNat_inj.mp hlower]
    simp

theorem caseRank_eq_iff {c d : Char} (hrank : listingRank c = listingRank d) : caseRank c = caseRank d ↔ c = d := by
  constructor
  · intro hcase
    apply Char.toNat_inj.mp
    rw [← codeAt_listingRank c, ← codeAt_listingRank d, hrank, hcase]
  · exact congrArg caseRank

/-- No two names have the same ranks and cases. -/
theorem listingKey_injective : Function.Injective listingKey := by
  intro a b h
  obtain ⟨hranks, hcases⟩ := Prod.mk.inj h
  have hcodes (name : String) : name.toList.map Char.toNat =
      List.zipWith codeAt (name.toList.map listingRank) (name.toList.map caseRank) := by
    rw [List.zipWith_map, List.zipWith_self]
    exact List.map_congr_left fun c _ ↦ (codeAt_listingRank c).symm
  apply String.toList_inj.mp
  apply List.map_injective_iff.mpr fun c d ↦ Char.toNat_inj.mp
  rw [hcodes a, hcodes b, hranks, hcases]

/-! ## The order of names -/

def listingPlace (name : String) : List Nat ×ₗ List Nat := toLex (listingKey name)

theorem listingPlace_injective : Function.Injective listingPlace := toLex.injective.comp listingKey_injective

theorem listedAtMost_iff (a b : String) : listedAtMost a b = true ↔ listingPlace a ≤ listingPlace b := by
  unfold listedAtMost listingPlace
  rw [Prod.Lex.toLex_le_toLex]
  simp only
  split
  · next hranks => simp [hranks, unitsAtMost_iff]
  · next hranks => simp [hranks, unitsAtMost_iff, le_iff_lt_or_eq]

theorem listedAlike_iff (a b : String) : listedAlike a b = true ↔ a = b :=
  decide_eq_true_iff.trans listingKey_injective.eq_iff

/-- The linear order in which names are listed. -/
abbrev listingOrder : LinearOrder String := LinearOrder.lift' listingPlace listingPlace_injective

def ListedBefore (a b : String) : Prop := listedAtMost b a = false

theorem listedBefore_iff (a b : String) : ListedBefore a b ↔ listingPlace a < listingPlace b := by
  rw [← not_le, ← listedAtMost_iff, Bool.not_eq_true]
  rfl

/-! ## The rule of the order -/

/-- A character that names have: an ASCII letter, a digit, a hyphen or a point. -/
def IsListable (c : Char) : Prop := isLetter c = true ∨ isDigit c = true ∨ c = '-' ∨ c = '.'

instance : DecidablePred IsListable := fun c ↦
  inferInstanceAs (Decidable (isLetter c = true ∨ isDigit c = true ∨ c = '-' ∨ c = '.'))

/-- The characters of names in small letters, in their order. -/
def listingAlphabet : List Char := "-.0123456789abcdefghijklmnopqrstuvwxyz".toList

/-- The places in the alphabet of the characters of a name, as if all letters were small. -/
def smallPlaces (name : String) : List Nat := name.toList.map fun c ↦ listingAlphabet.idxOf c.toLower

/-- The first difference is between a small letter and its capital. -/
def SmallFirst (as bs : List Char) : Prop :=
  ∃ front c d rest rest', as = front ++ c :: rest ∧ bs = front ++ d :: rest' ∧ c = d.toLower ∧ c ≠ d

/-- The rule by which one name is listed before another.  As if in small letters it comes first by the alphabet, a
proper beginning first; or the names are the same in small letters, and it has the small letter where they first
differ. -/
def ComesBefore (a b : String) : Prop :=
  smallPlaces a < smallPlaces b ∨ smallPlaces a = smallPlaces b ∧ SmallFirst a.toList b.toList

theorem listingRank_eq_idxOf {c : Char} (h : IsListable c) : listingRank c = listingAlphabet.idxOf c.toLower := by
  have hcode : c.toNat < 128 := by
    rcases h with hletter | hdigit | rfl | rfl
    · have hrange := (isLetter_iff c).mp hletter
      omega
    · have hrange := (isDigit_iff c).mp hdigit
      omega
    · decide
    · decide
  have hall : ∀ code < 128, IsListable (Char.ofNat code) →
      listingRank (Char.ofNat code) = listingAlphabet.idxOf (Char.ofNat code).toLower := by decide +kernel
  have hc := hall c.toNat hcode
  rw [Char.ofNat_toNat] at hc
  exact hc h

theorem smallPlaces_eq {name : String} (h : ∀ c ∈ name.toList, IsListable c) :
    smallPlaces name = (listingKey name).1 :=
  List.map_congr_left fun c hc ↦ (listingRank_eq_idxOf (h c hc)).symm

theorem smallFirst_cons_iff (c d : Char) (as bs : List Char) :
    SmallFirst (c :: as) (d :: bs) ↔ c = d.toLower ∧ c ≠ d ∨ c = d ∧ SmallFirst as bs := by
  constructor
  · rintro ⟨front, e, e', rest, rest', has, hbs, hdiffer⟩
    cases front with
    | nil =>
      obtain ⟨rfl, -⟩ := List.cons.inj has
      obtain ⟨rfl, -⟩ := List.cons.inj hbs
      exact .inl hdiffer
    | cons first front =>
      obtain ⟨rfl, htail⟩ := List.cons.inj has
      obtain ⟨rfl, htail'⟩ := List.cons.inj hbs
      exact .inr ⟨rfl, front, e, e', rest, rest', htail, htail', hdiffer⟩
  · rintro (hdiffer | ⟨rfl, front, e, e', rest, rest', rfl, rfl, hdiffer⟩)
    · exact ⟨[], c, d, as, bs, rfl, rfl, hdiffer⟩
    · exact ⟨c :: front, e, e', rest, rest', rfl, rfl, hdiffer⟩

/-- Of characters with the same ranks, those are listed first that have the small letter at the first difference. -/
theorem map_caseRank_lt_iff {as bs : List Char} (h : as.map listingRank = bs.map listingRank) :
    as.map caseRank < bs.map caseRank ↔ SmallFirst as bs := by
  induction as generalizing bs with
  | nil =>
    obtain rfl : bs = [] := List.map_eq_nil_iff.mp h.symm
    simp [SmallFirst]
  | cons c as ih =>
    cases bs with
    | nil => cases h
    | cons d bs =>
      obtain ⟨hrank, hranks⟩ := List.cons.inj h
      rw [List.map_cons, List.map_cons, List.cons_lt_cons_iff, caseRank_lt_iff hrank, caseRank_eq_iff hrank, ih hranks,
        smallFirst_cons_iff]

/-- Names of letters, digits, hyphens and points are listed by the rule. -/
theorem listedBefore_iff_comesBefore {a b : String} (ha : ∀ c ∈ a.toList, IsListable c)
    (hb : ∀ c ∈ b.toList, IsListable c) : ListedBefore a b ↔ ComesBefore a b := by
  rw [listedBefore_iff, ComesBefore, smallPlaces_eq ha, smallPlaces_eq hb]
  unfold listingPlace
  rw [Prod.Lex.toLex_lt_toLex]
  exact or_congr_right (and_congr_right map_caseRank_lt_iff)

end Text

/-! ## The order of items -/

namespace ListItem

/-- An item that stands before another in listings: its host name is listed before, or both have one host name and its
identifier is listed before. -/
def Before (a b : ListItem) : Prop :=
  Text.ListedBefore a.host b.host ∨ a.host = b.host ∧ Text.ListedBefore a.id b.id

/-- Where an item is listed: at its host name and then at its identifier. -/
def place (item : ListItem) : (List Nat ×ₗ List Nat) ×ₗ (List Nat ×ₗ List Nat) :=
  toLex (Text.listingPlace item.host, Text.listingPlace item.id)

theorem before_iff (a b : ListItem) : a.Before b ↔ a.place < b.place := by
  unfold Before place
  rw [Prod.Lex.toLex_lt_toLex, Text.listedBefore_iff, Text.listedBefore_iff, Text.listingPlace_injective.eq_iff]

theorem atMost_iff (a b : ListItem) : a.atMost b = true ↔ a.place ≤ b.place := by
  unfold atMost place
  rw [Prod.Lex.toLex_le_toLex, Text.listingPlace_injective.eq_iff, ← Text.listedAtMost_iff]
  by_cases hhost : a.host = b.host
  · rw [if_pos ((Text.listedAlike_iff a.host b.host).mpr hhost), hhost]
    simp
  · have hplace := Text.listingPlace_injective.ne hhost
    rw [if_neg (mt (Text.listedAlike_iff a.host b.host).mp hhost), Text.listedAtMost_iff, le_iff_lt_or_eq]
    simp [hhost, hplace]

/-- Sorted items whose identifiers are distinct stand strictly one before the other. -/
theorem pairwise_before_sorted {items : List ListItem} (hids : (items.map id).Nodup) :
    (sorted items).Pairwise Before := by
  have hdistinct : items.Pairwise fun a b ↦ a.place ≠ b.place := by
    refine (List.pairwise_map.mp hids).imp fun hne hplace ↦ hne ?_
    exact Text.listingPlace_injective (Prod.mk.inj (toLex.injective hplace)).2
  exact (pairwise_lt_mergeSort atMost_iff hdistinct).imp fun {a b} hlt ↦ (before_iff a b).mpr hlt

/-- Items can stand one before the other in one way only. -/
theorem eq_of_pairwise_before {items others : List ListItem} (hperm : items.Perm others)
    (hitems : items.Pairwise Before) (hothers : others.Pairwise Before) : items = others := by
  apply List.Perm.eq_of_pairwise _ hitems hothers hperm
  intro a b _ _ hab hba
  exact absurd ((before_iff a b).mp hab) ((before_iff b a).mp hba).not_gt

end ListItem

/-! ## Listings -/

namespace Manager

variable {manager other : Manager}

theorem satisfies_eq (record : NodeRecord) (filter : NodeFilter) : record.satisfies filter =
    decide ((filter.health = none ∨ filter.health = some (.text record.status.health.name)) ∧
      (filter.operational = none ∨ filter.operational.same record.status.operational = true)) := by
  rw [Bool.eq_iff_iff]
  simp [NodeRecord.satisfies]

theorem perm_listNodes (manager : Manager) (filter : NodeFilter) :
    (manager.listNodes filter).Perm ((manager.registry.list filter).map NodeRecord.toListItem) :=
  List.mergeSort_perm _ ListItem.atMost

theorem pairwise_before_listNodes (hids : (manager.registry.records.values.map NodeRecord.id).Nodup)
    (filter : NodeFilter) : (manager.listNodes filter).Pairwise ListItem.Before := by
  apply ListItem.pairwise_before_sorted
  rw [List.map_map]
  exact (List.filter_sublist.map NodeRecord.id).nodup hids

/-- The listing of a filter depends on nothing but the records, whatever their order. -/
theorem listNodes_eq_of_perm (hids : (manager.registry.records.values.map NodeRecord.id).Nodup)
    (hsame : manager.registry.records.values.Perm other.registry.records.values) (filter : NodeFilter) :
    manager.listNodes filter = other.listNodes filter := by
  have hothers : (other.registry.records.values.map NodeRecord.id).Nodup := (hsame.map _).nodup_iff.mp hids
  have hitems : ((manager.registry.list filter).map NodeRecord.toListItem).Perm
      ((other.registry.list filter).map NodeRecord.toListItem) := (hsame.filter _).map _
  apply ListItem.eq_of_pairwise_before
  · exact ((perm_listNodes manager filter).trans hitems).trans (perm_listNodes other filter).symm
  · exact pairwise_before_listNodes hids filter
  · exact pairwise_before_listNodes hothers filter

/-- Two managers whose registries hold the same records, no two of them of one identifier, in whatever order they came,
give the same listing for every filter.  It shows one item for each record that has the health and the operational state
of the filter, as far as the filter names them, and each item stands before the next by host name and then by
identifier.  Names are compared by a linear order, which among names of letters, digits, hyphens and points is that of
the rule. -/
theorem listing_determined_by_records (hids : (manager.registry.records.values.map NodeRecord.id).Nodup)
    (hsame : manager.registry.records.values.Perm other.registry.records.values) (filter : NodeFilter) :
    manager.listNodes filter = other.listNodes filter ∧
      (manager.listNodes filter).Perm
        ((manager.registry.records.values.filter fun record ↦
          (filter.health = none ∨ filter.health = some (.text record.status.health.name)) ∧
            (filter.operational = none ∨ filter.operational.same record.status.operational = true)).map
          NodeRecord.toListItem) ∧
      (manager.listNodes filter).Pairwise ListItem.Before ∧
      ∃ order : LinearOrder String, (∀ a b, order.le a b ↔ Text.listedAtMost a b = true) ∧
        ∀ a b, (∀ c ∈ a.toList, Text.IsListable c) → (∀ c ∈ b.toList, Text.IsListable c) →
          (order.lt a b ↔ Text.ComesBefore a b) := by
  refine ⟨?_, ?_, ?_, Text.listingOrder, ?_, ?_⟩
  · exact listNodes_eq_of_perm hids hsame filter
  · simp only [← satisfies_eq]
    exact perm_listNodes manager filter
  · exact pairwise_before_listNodes hids filter
  · exact fun a b ↦ (Text.listedAtMost_iff a b).symm
  · exact fun a b ha hb ↦ (Text.listedBefore_iff a b).symm.trans (Text.listedBefore_iff_comesBefore ha hb)

/-- Two datanodes of one host, registered in either order, are listed by their identifiers. -/
theorem listing_determined_by_two_records :
    let record (id : String) := NodeRecord.registered ⟨[("uuid", .text id), ("hostName", .text "dn-1")]⟩ default 0
    let manager : Manager := { (default : Manager) with
      registry := ⟨.ofList [("b", record "b"), ("A", record "A")]⟩ }
    let other : Manager := { (default : Manager) with
      registry := ⟨.ofList [("A", record "A"), ("b", record "b")]⟩ }
    (manager.registry.records.values.map NodeRecord.id).Nodup ∧
      manager.registry.records.values.Perm other.registry.records.values ∧
      manager.listNodes {} = [(record "A").toListItem, (record "b").toListItem] := by
  intro record manager other
  have hids : (manager.registry.records.values.map NodeRecord.id).Nodup := by decide
  have hsame : manager.registry.records.values.Perm other.registry.records.values := .swap _ _ []
  have hlisted : other.listNodes {} = [(record "A").toListItem, (record "b").toListItem] :=
    List.mergeSort_of_pairwise (by decide)
  exact ⟨hids, hsame, (listing_determined_by_records hids hsame {}).1.trans hlisted⟩

end Manager

/-- A run from empty memory and any other run that end with the same record under every identifier end with the same
listings, in whatever order they registered, changed and removed datanodes. -/
theorem World.listNodes_after_eq {world other : World} (hempty : world.manager.HasEmptyMemory)
    {moves others : List Move}
    (hsame : ∀ id, (world.after moves).manager.registry.get? id = (other.after others).manager.registry.get? id)
    (filter : NodeFilter) :
    (world.after moves).manager.listNodes filter = (other.after others).manager.listNodes filter := by
  have hkeyed : (world.after moves).manager.Keyed := (sound_after hempty.sound moves).keyed
  apply Manager.listNodes_eq_of_perm
  · rw [Manager.map_id_values hkeyed]
    exact OrderedMap.nodup_keys _
  · exact (OrderedMap.perm_entries_of_get?_eq hsame).map Prod.snd

end ClusterMembership
