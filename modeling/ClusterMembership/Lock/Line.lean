import ClusterMembership.OrderedMap

/-!
# Locks as lines

For every datanode there is a line of tasks, by number.  The first in line holds the lock of the datanode; the
others wait in the order in which they came.  A line that is empty is not kept, so a lock is taken exactly while
someone stands in its line.

The locks themselves are tails of requests, each chained to the one before (`LockTails`); their answers are those of
such lines (`LockTails.Alike.answers`).
-/

namespace ClusterMembership

structure LockLines where
  lines : OrderedMap (List Nat)
  deriving DecidableEq, Inhabited

namespace LockLines

def empty : LockLines := ⟨.empty⟩

def line (locks : LockLines) (id : String) : List Nat := (locks.lines.get? id).getD []

def holder? (locks : LockLines) (id : String) : Option Nat := (locks.line id).head?

def isLocked (locks : LockLines) (id : String) : Bool := locks.lines.contains id

def join (locks : LockLines) (id : String) (task : Nat) : LockLines :=
  ⟨locks.lines.insert id (locks.line id ++ [task])⟩

def leave (locks : LockLines) (id : String) : LockLines :=
  match locks.line id with
  | [] | [_] => ⟨locks.lines.erase id⟩
  | _ :: rest => ⟨locks.lines.insert id rest⟩

/-! ## Lines after a change -/

@[simp]
theorem line_empty (id : String) : empty.line id = [] := rfl

theorem line_join (locks : LockLines) (joined id : String) (task : Nat) :
    (locks.join joined task).line id =
      if joined = id then locks.line id ++ [task] else locks.line id := by
  unfold line join
  rw [OrderedMap.get?_insert]
  by_cases h : joined = id
  · rw [if_pos h, if_pos h, h, line, Option.getD_some]
  · rw [if_neg h, if_neg h]

/-- A line is given up with the last who stood in it. -/
theorem leave_eq (locks : LockLines) (left : String) :
    locks.leave left =
      if (locks.line left).tail = [] then ⟨locks.lines.erase left⟩
      else ⟨locks.lines.insert left (locks.line left).tail⟩ := by
  unfold leave
  cases locks.line left with
  | nil => rfl
  | cons task rest => cases rest <;> rfl

theorem line_leave (locks : LockLines) (left id : String) :
    (locks.leave left).line id = if left = id then (locks.line id).tail else locks.line id := by
  have hinsert : (⟨locks.lines.insert left (locks.line left).tail⟩ : LockLines).line id =
      if left = id then (locks.line left).tail else locks.line id := by
    rw [line, OrderedMap.get?_insert]
    split <;> rfl
  have herase : (⟨locks.lines.erase left⟩ : LockLines).line id =
      if left = id then [] else locks.line id := by
    rw [line, OrderedMap.get?_erase]
    split <;> rfl
  rw [leave_eq]
  by_cases h : left = id
  · subst h
    rw [if_pos rfl] at hinsert herase ⊢
    split
    · next hlast => rw [herase, hlast]
    · exact hinsert
  · rw [if_neg h] at hinsert herase ⊢
    split
    · exact herase
    · exact hinsert

/-- Lines of which none is kept empty. -/
def Tidy (locks : LockLines) : Prop := ∀ id, locks.isLocked id = true ↔ locks.line id ≠ []

theorem tidy_empty : empty.Tidy := by
  intro id
  rw [line_empty]
  exact ⟨fun h ↦ absurd h Bool.false_ne_true, fun h ↦ absurd rfl h⟩

theorem Tidy.join {locks : LockLines} (htidy : locks.Tidy) (joined : String) (task : Nat) :
    (locks.join joined task).Tidy := by
  intro id
  rw [line_join, isLocked, OrderedMap.contains, LockLines.join, OrderedMap.get?_insert]
  by_cases h : joined = id
  · simp [h]
  · rw [if_neg h, if_neg h]
    exact htidy id

theorem Tidy.leave {locks : LockLines} (htidy : locks.Tidy) (left : String) :
    (locks.leave left).Tidy := by
  intro id
  rw [line_leave, leave_eq, isLocked, OrderedMap.contains]
  by_cases h : left = id
  · subst h
    rw [if_pos rfl]
    split
    · next hlast => simp [hlast, OrderedMap.get?_erase]
    · next hothers => simp [hothers, OrderedMap.get?_insert]
  · rw [if_neg h]
    split
    · rw [OrderedMap.get?_erase, if_neg h]
      exact htidy id
    · rw [OrderedMap.get?_insert, if_neg h]
      exact htidy id

/-- When no one stands in any line, no line is kept. -/
theorem Tidy.eq_empty {locks : LockLines} (htidy : locks.Tidy) (h : ∀ id, locks.line id = []) :
    locks = empty := by
  obtain ⟨⟨entries, distinct⟩⟩ := locks
  cases entries with
  | nil => rfl
  | cons entry rest =>
    have hlocked : (⟨⟨entry :: rest, distinct⟩⟩ : LockLines).isLocked entry.1 = true := by
      simp [isLocked, OrderedMap.contains, OrderedMap.get?, Association.find?]
    exact absurd (h entry.1) ((htidy entry.1).mp hlocked)

end LockLines

end ClusterMembership
