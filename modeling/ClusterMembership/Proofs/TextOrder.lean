import Mathlib.Data.List.Forall2
import Mathlib.Data.List.Lex
import Mathlib.Data.List.Sort
import ClusterMembership.Text.Units

/-!
# The order of texts

Texts are in order by their UTF-16 units.  A text is determined by its units, since no character has a unit that
begins or ends a pair, and units are compared lexicographically, so the order is linear.  Hence a list that is
sorted by identifiers, no two of which are the same, ascends strictly, and an item stands at the place that counts
the items before it.
-/

namespace ClusterMembership

namespace Text

/-! ## Units -/

/-- A character and what follows it can be told from its units. -/
theorem unitsOfChar_append_inj {c d : Char} {as bs : List Nat}
    (h : unitsOfChar c ++ as = unitsOfChar d ++ bs) : c = d ∧ as = bs := by
  -- Characters have no code between the two halves of the pairs, and none beyond what pairs can write.
  have hvalid (e : Char) : e.toNat < 0xD800 ∨ 0xDFFF < e.toNat ∧ e.toNat < 0x110000 := e.valid
  have hc := hvalid c
  have hd := hvalid d
  unfold unitsOfChar at h
  simp only at h
  split at h <;> split at h
  · obtain ⟨hcode, has⟩ := List.cons.inj h
    exact ⟨Char.toNat_inj.mp hcode, has⟩
  · obtain ⟨hcode, -⟩ := List.cons.inj h
    omega
  · obtain ⟨hcode, -⟩ := List.cons.inj h
    omega
  · obtain ⟨hfirst, hrest⟩ := List.cons.inj h
    obtain ⟨hsecond, has⟩ := List.cons.inj hrest
    exact ⟨Char.toNat_inj.mp (by omega), has⟩

theorem unitsOfChar_ne_nil (c : Char) : unitsOfChar c ≠ [] := by
  unfold unitsOfChar
  simp only
  split <;> simp

/-- A text is determined by its units. -/
theorem units_inj {a b : String} (h : units a = units b) : a = b := by
  have hchars : ∀ {cs ds : List Char}, cs.flatMap unitsOfChar = ds.flatMap unitsOfChar → cs = ds := by
    intro cs
    induction cs with
    | nil =>
      intro ds hds
      cases ds with
      | nil => rfl
      | cons d ds => simp [unitsOfChar_ne_nil] at hds
    | cons c cs ih =>
      intro ds hds
      cases ds with
      | nil => simp [unitsOfChar_ne_nil] at hds
      | cons d ds =>
        rw [List.flatMap_cons, List.flatMap_cons] at hds
        obtain ⟨rfl, hrest⟩ := unitsOfChar_append_inj hds
        rw [ih hrest]
  exact String.toList_inj.mp (hchars h)

/-! ## A linear order -/

/-- Units are compared lexicographically. -/
theorem unitsAtMost_iff (as bs : List Nat) : unitsAtMost as bs = true ↔ as ≤ bs := by
  rw [← not_lt]
  induction as generalizing bs with
  | nil => simp [unitsAtMost]
  | cons a as ih =>
    cases bs with
    | nil => simp [unitsAtMost]
    | cons b bs =>
      rw [List.cons_lt_cons_iff, not_or, not_and, ← ih]
      simp only [unitsAtMost, Bool.or_eq_true, Bool.and_eq_true, decide_eq_true_eq]
      grind

theorem atMost_iff (a b : String) : atMost a b = true ↔ units a ≤ units b := unitsAtMost_iff (units a) (units b)

theorem atMost_total (a b : String) : (atMost a b || atMost b a) = true := by
  rw [Bool.or_eq_true, atMost_iff, atMost_iff]
  exact le_total (units a) (units b)

theorem atMost_trans {a b c : String} (hab : atMost a b = true) (hbc : atMost b c = true) : atMost a c = true := by
  rw [atMost_iff] at hab hbc ⊢
  exact hab.trans hbc

theorem atMost_antisymm {a b : String} (hab : atMost a b = true) (hba : atMost b a = true) : a = b := by
  rw [atMost_iff] at hab hba
  exact units_inj (le_antisymm hab hba)

/-- A text that comes strictly before another. -/
def Before (a b : String) : Prop := atMost b a = false

instance : DecidableRel Before := fun a b ↦ inferInstanceAs (Decidable (atMost b a = false))

theorem Before.atMost {a b : String} (h : Before a b) : atMost a b = true := by
  have htotal := atMost_total a b
  rwa [show Text.atMost b a = false from h, Bool.or_false] at htotal

theorem before_iff (a b : String) : Before a b ↔ atMost a b = true ∧ a ≠ b := by
  constructor
  · intro h
    refine ⟨h.atMost, ?_⟩
    rintro rfl
    exact Bool.false_ne_true (h.symm.trans h.atMost)
  · rintro ⟨hab, hne⟩
    exact Bool.eq_false_iff.mpr fun hba ↦ hne (atMost_antisymm hab hba)

theorem not_before_self (a : String) : ¬ Before a a := fun h ↦ ((before_iff a a).mp h).2 rfl

theorem Before.trans {a b c : String} (hab : Before a b) (hbc : Before b c) : Before a c :=
  Bool.eq_false_iff.mpr fun hca ↦ Bool.false_ne_true (hbc.symm.trans (atMost_trans hca hab.atMost))

end Text

/-! ## Sorted lists -/

section Sorting

variable {α β : Type} {key : α → String}

/-- Sorted by the places of its items in a linear order, which are distinct, a list ascends strictly. -/
theorem pairwise_lt_mergeSort {κ : Type} [LinearOrder κ] {place : α → κ} {le : α → α → Bool}
    (hle : ∀ a b, le a b = true ↔ place a ≤ place b) {items : List α}
    (h : items.Pairwise fun a b ↦ place a ≠ place b) :
    (items.mergeSort le).Pairwise fun a b ↦ place a < place b := by
  have hsorted : (items.mergeSort le).Pairwise fun a b ↦ le a b = true := by
    apply List.pairwise_mergeSort
    · intro a b c hab hbc
      rw [hle] at hab hbc ⊢
      exact hab.trans hbc
    · intro a b
      rw [Bool.or_eq_true, hle, hle]
      exact le_total (place a) (place b)
  have hdistinct : (items.mergeSort le).Pairwise fun a b ↦ place a ≠ place b :=
    (List.mergeSort_perm items le).symm.pairwise h fun hab ↦ hab.symm
  exact (hsorted.and hdistinct).imp fun {a b} hab ↦ lt_of_le_of_ne ((hle a b).mp hab.1) hab.2

/-- Sorted by keys that are distinct, a list ascends strictly. -/
theorem pairwise_before_mergeSort {items : List α} (h : (items.map key).Nodup) :
    (items.mergeSort fun a b ↦ Text.atMost (key a) (key b)).Pairwise fun a b ↦ Text.Before (key a) (key b) := by
  have hdistinct : items.Pairwise fun a b ↦ Text.units (key a) ≠ Text.units (key b) :=
    (List.pairwise_map.mp h).imp fun hne hunits ↦ hne (Text.units_inj hunits)
  have hle (a b : α) := Text.atMost_iff (key a) (key b)
  refine (pairwise_lt_mergeSort hle hdistinct).imp fun {a b} hlt ↦ ?_
  rw [Text.Before, Bool.eq_false_iff, ne_eq, Text.atMost_iff]
  exact not_le.mpr hlt

/-- In a list that ascends strictly, an item stands at the place that counts the items before it. -/
theorem countP_before_of_getElem? {items : List α}
    (h : items.Pairwise fun a b ↦ Text.Before (key a) (key b)) {place : Nat} {item : α}
    (hitem : items[place]? = some item) :
    items.countP (fun other ↦ Text.Before (key other) (key item)) = place := by
  induction items generalizing place with
  | nil => cases hitem
  | cons first rest ih =>
    obtain ⟨hfirst, hrest⟩ := List.pairwise_cons.mp h
    cases place with
    | zero =>
      obtain rfl : first = item := Option.some.inj hitem
      have hself := Text.not_before_self (key first)
      rw [List.countP_cons_of_neg (by simpa using hself), List.countP_eq_zero]
      intro other hother
      have hbefore := hfirst other hother
      simpa using fun hcontra : Text.Before (key other) (key first) ↦ hself (hbefore.trans hcontra)
    | succ place =>
      rw [List.getElem?_cons_succ] at hitem
      rw [List.countP_cons_of_pos (by simpa using hfirst item (List.mem_of_getElem? hitem)), ih hrest hitem]

/-- Lists whose items correspond one to one still do so after sorting, when the orders correspond too. -/
theorem forall₂_mergeSort {related : α → β → Prop} {le : α → α → Bool} {le' : β → β → Bool}
    (hle : ∀ {a b a' b'}, related a a' → related b b' → le a b = le' a' b') {items : List α} {others : List β}
    (h : List.Forall₂ related items others) : List.Forall₂ related (items.mergeSort le) (others.mergeSort le') := by
  -- Both lists are views of one list of pairs, and sorting the pairs sorts both.
  obtain ⟨pairs, hpairs, rfl, rfl⟩ : ∃ pairs : List (α × β), (∀ pair ∈ pairs, related pair.1 pair.2) ∧
      pairs.map Prod.fst = items ∧ pairs.map Prod.snd = others := by
    refine ⟨items.zip others, fun pair hpair ↦ ?_, ?_, ?_⟩
    · exact (List.forall₂_iff_zip.mp h).2 hpair
    · exact List.map_fst_zip h.length_eq.le
    · exact List.map_snd_zip h.length_eq.ge
  let lePair (x y : α × β) : Bool := le x.1 y.1
  have hfst : (pairs.map Prod.fst).mergeSort le = (pairs.mergeSort lePair).map Prod.fst :=
    (List.map_mergeSort (f := Prod.fst) (r := lePair) (s := le) fun _ _ _ _ ↦ rfl).symm
  have hsnd : (pairs.map Prod.snd).mergeSort le' = (pairs.mergeSort lePair).map Prod.snd :=
    (List.map_mergeSort fun x hx y hy ↦ hle (hpairs x hx) (hpairs y hy)).symm
  rw [hfst, hsnd, List.forall₂_map_left_iff, List.forall₂_map_right_iff, List.forall₂_same]
  exact fun pair hpair ↦ hpairs pair (List.mem_mergeSort.mp hpair)

end Sorting

end ClusterMembership
