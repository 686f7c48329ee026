import ClusterMembership.Lock.Strand
import Mathlib.Algebra.BigOperators.Ring.List
import Mathlib.Algebra.Order.BigOperators.Group.List
import Mathlib.Algebra.Order.Ring.Nat

/-!
# Steps of a strand under one lock

Tasks are started from outside any lock; under its lock a task may enter the same lock again and wait for what it
does there, but it asks for no other lock and starts no other task.  A strand of such a task stands in one of five
ways (`Strand.Within`), and each of its steps leaves all requests alone or ends the task, releases its request and
passes the lock on (`Stage.Stepped`).  A step also gives up at least what the turns that it asks for cost, so turns
come to an end.
-/

namespace ClusterMembership

/-! ## Sections that keep to one lock -/

mutual

/-- An instruction that enters no lock but one and starts no task. -/
def Instruction.KeepsTo (id : String) : Instruction → Prop
  | .enter entered body _ => entered = id ∧ BodyKeepsTo id body
  | .spawn _ _ _ => False
  | _ => True

/-- A section that enters no lock but one and starts no task. -/
def BodyKeepsTo (id : String) : List Instruction → Prop
  | [] => True
  | instruction :: rest => instruction.KeepsTo id ∧ BodyKeepsTo id rest

end

/-- A frame of a task that was started for a lock. -/
structure Frame.Under (id : String) (frame : Frame) : Prop where
  id_eq : frame.id = id
  held : frame.held = [id]
  rest : BodyKeepsTo id frame.rest

/-- The frames of a task under a lock: the outermost has taken the lock, the others have found it held. -/
inductive Nested (id : String) : List Frame → Prop where
  | outermost {frame : Frame} : frame.Under id → frame.owns = true → Nested id [frame]
  | inner {frame : Frame} {outer : List Frame} :
      frame.Under id → frame.owns = false → Nested id outer → Nested id (frame :: outer)

theorem Frame.Under.goesOn {id : String} {frame : Frame} (hframe : frame.Under id) {rest : List Instruction}
    (hrest : BodyKeepsTo id rest) (paused : Bool) : { frame with rest, paused }.Under id :=
  ⟨hframe.id_eq, hframe.held, hrest⟩

theorem Frame.request?_of_owns {frame : Frame} (howns : frame.owns = true) :
    ∃ request, frame.request? = some request :=
  Option.isSome_iff_exists.mp howns

theorem Frame.request?_of_found {frame : Frame} (hfound : frame.owns = false) : frame.request? = none :=
  Option.not_isSome_iff_eq_none.mp (Bool.eq_false_iff.mp hfound)

namespace Nested

theorem ne_nil {id : String} {frames : List Frame} (hnested : Nested id frames) : frames ≠ [] := by
  cases hnested <;> exact List.cons_ne_nil _ _

theorem head_under {id : String} {frame : Frame} {outer : List Frame} (hnested : Nested id (frame :: outer)) :
    frame.Under id := by
  cases hnested with
  | outermost hframe => exact hframe
  | inner hframe => exact hframe

/-- Frames stay nested while the innermost goes on. -/
theorem goesOn {id : String} {frame : Frame} {outer : List Frame} (hnested : Nested id (frame :: outer))
    {rest : List Instruction} (hrest : BodyKeepsTo id rest) (paused : Bool) :
    Nested id ({ frame with rest, paused } :: outer) := by
  cases hnested with
  | outermost hframe howns => exact .outermost (hframe.goesOn hrest paused) howns
  | inner hframe howns houter => exact .inner (hframe.goesOn hrest paused) howns houter

end Nested

inductive Strand.Within (id : String) : Strand → Prop where
  | waiting (name : String) {frame : Frame} :
      frame.Under id → frame.owns = true → Within id ⟨name, [frame], .waiting⟩
  | granted (name : String) {frame : Frame} :
      frame.Under id → frame.owns = true → Within id ⟨name, [frame], .granted⟩
  | running (name : String) {frames : List Frame} : Nested id frames → Within id ⟨name, frames, .running⟩
  | ending (name : String) {frames : List Frame} (outcome : SectionOutcome) :
      Nested id frames → Within id ⟨name, frames, .ending outcome⟩
  | settled (name : String) (outcome : SectionOutcome) : Within id ⟨name, [], .settled outcome⟩

theorem Strand.Within.grant {id : String} {strand : Strand} (hwithin : strand.Within id)
    (hwaiting : strand.stand = .waiting) : { strand with stand := .granted }.Within id := by
  cases hwithin with
  | waiting name hframe howns => exact .granted name hframe howns
  | granted name hframe howns => exact .granted name hframe howns
  | _ => cases hwaiting

namespace Stand

/-- Whether a strand does what it was started for, or is done but has not left its lock. -/
def IsAtWork : Stand → Prop
  | .running | .ending _ => True
  | _ => False

/-- Whether a strand has been let into its lock and has not left it. -/
def IsLetIn (stand : Stand) : Prop := stand = .granted ∨ stand.IsAtWork

def IsSettled : Stand → Prop
  | .settled _ => True
  | _ => False

theorem IsLetIn.not_settled {stand : Stand} (hin : stand.IsLetIn) : ¬ stand.IsSettled := by
  intro hsettled
  cases stand with
  | settled outcome => exact hin.elim Stand.noConfusion id
  | _ => exact hsettled

theorem IsLetIn.not_waiting {stand : Stand} (hin : stand.IsLetIn) : stand ≠ .waiting := by
  rintro rfl
  exact hin.elim Stand.noConfusion id

end Stand

/-! ## What strands have yet to do -/

theorem Instruction.one_le_size (instruction : Instruction) : 1 ≤ instruction.size := by
  cases instruction <;> simp [Instruction.size]

/-- The turns that a turn costs, its own among them. -/
def Turn.cost (turn : Turn) : Nat := turn.wait + 1

/-- The turns that a strand may still take before its innermost frame ends, apart from instructions. -/
def Stand.weight : Stand → Nat
  | .waiting => 8
  | .granted => 5
  | .running => 4
  | _ => 0

def Frame.weight (frame : Frame) : Nat := 16 * sizeOfBody frame.rest + 5

def Strand.weight (strand : Strand) : Nat := (strand.frames.map Frame.weight).sum + strand.stand.weight

theorem Strand.size_eq_sum (strand : Strand) :
    strand.size = (strand.frames.map fun frame ↦ sizeOfBody frame.rest + 1).sum := by
  rw [List.sum_eq_foldl, List.foldl_map]
  rfl

theorem sum_frameWeight (frames : List Frame) :
    (frames.map Frame.weight).sum + 11 * frames.length =
      16 * (frames.map fun frame ↦ sizeOfBody frame.rest + 1).sum := by
  induction frames with
  | nil => rfl
  | cons frame rest ih =>
    simp only [List.map_cons, List.sum_cons, List.length_cons, Frame.weight]
    omega

theorem Strand.Within.weight_le {id : String} {strand : Strand} (hwithin : strand.Within id) :
    strand.weight ≤ 16 * strand.size := by
  have hstand : strand.stand.weight ≤ 11 * strand.frames.length := by
    cases hwithin with
    | waiting | granted => exact Nat.le_of_ble_eq_true rfl
    | running name hnested =>
      have hlength := List.length_pos_iff.mpr hnested.ne_nil
      simp only [Stand.weight]
      omega
    | ending | settled => exact Nat.zero_le _
  have hframes := sum_frameWeight strand.frames
  rw [strand.size_eq_sum, Strand.weight]
  omega

/-- A bound on the turns that can be taken on a stage. -/
def Stage.weight (stage : Stage) : Nat :=
  (stage.strands.map Strand.weight).sum + (stage.turns.map Turn.cost).sum

namespace Stage

def stand? (stage : Stage) (number : Nat) : Option Stand := (stage.strands[number]?).map Strand.stand

/-- Whether a task has been let into its lock and has not left it. -/
def IsLetIn (stage : Stage) (number : Nat) : Prop :=
  ∃ stand, stage.stand? number = some stand ∧ stand.IsLetIn

def IsAtWork (stage : Stage) (number : Nat) : Prop :=
  ∃ stand, stage.stand? number = some stand ∧ stand.IsAtWork

def HasEnded (stage : Stage) (number : Nat) : Prop :=
  ∃ stand, stage.stand? number = some stand ∧ stand.IsSettled

/-- Whether a task has started: it neither waits for its lock nor was just let in. -/
def HasBegun (stage : Stage) (number : Nat) : Prop := stage.IsAtWork number ∨ stage.HasEnded number

def InTurn (stage : Stage) (number : Nat) : Prop := ∃ turn ∈ stage.turns, turn.task = number

theorem IsLetIn.isSome {stage : Stage} {number : Nat} (hin : stage.IsLetIn number) :
    (stage.stand? number).isSome := by
  obtain ⟨stand, hstand, -⟩ := hin
  exact Option.isSome_of_mem hstand

theorem IsLetIn.not_ended {stage : Stage} {number : Nat} (hin : stage.IsLetIn number) :
    ¬ stage.HasEnded number := by
  rintro ⟨stand, hstand, hsettled⟩
  obtain ⟨other, hother, hletIn⟩ := hin
  obtain rfl : other = stand := Option.some.inj (hother.symm.trans hstand)
  exact hletIn.not_settled hsettled

theorem IsLetIn.not_waiting {stage : Stage} {number : Nat} (hin : stage.IsLetIn number) :
    stage.stand? number ≠ some .waiting := by
  intro hwaiting
  obtain ⟨stand, hstand, hletIn⟩ := hin
  obtain rfl : stand = .waiting := Option.some.inj (hstand.symm.trans hwaiting)
  exact hletIn.not_waiting rfl

theorem IsAtWork.isLetIn {stage : Stage} {number : Nat} (hwork : stage.IsAtWork number) :
    stage.IsLetIn number :=
  hwork.imp fun _ h ↦ ⟨h.1, .inr h.2⟩

theorem HasEnded.not_waiting {stage : Stage} {number : Nat} (hended : stage.HasEnded number) :
    stage.stand? number ≠ some .waiting := by
  intro hwaiting
  obtain ⟨stand, hstand, hsettled⟩ := hended
  obtain rfl : stand = .waiting := Option.some.inj (hstand.symm.trans hwaiting)
  exact hsettled

theorem HasBegun.not_waiting {stage : Stage} {number : Nat} (hbegun : stage.HasBegun number) :
    stage.stand? number ≠ some .waiting :=
  hbegun.elim (fun hwork ↦ hwork.isLetIn.not_waiting) HasEnded.not_waiting

theorem stand?_of_some {stage : Stage} {number : Nat} {strand : Strand}
    (hstrand : stage.strands[number]? = some strand) : stage.stand? number = some strand.stand := by
  rw [stand?, hstrand]
  rfl

section Replaced

variable {stage after : Stage} {number : Nat} {next : Strand}

theorem stand?_replaced (hset : after.strands = stage.strands.set number next)
    (hstand : (stage.stand? number).isSome) : after.stand? number = some next.stand := by
  have hlt : number < stage.strands.length := by simpa [stand?] using hstand
  rw [stand?, hset, List.getElem?_set_self hlt]
  rfl

theorem stand_eq_of_replaced (hset : after.strands = stage.strands.set number next) {stand : Stand}
    (hstand : after.stand? number = some stand) : stand = next.stand := by
  rw [stand?, hset, List.getElem?_set, if_pos rfl] at hstand
  split at hstand
  · exact (Option.some.inj hstand).symm
  · cases hstand

theorem stand?_of_ne (hset : after.strands = stage.strands.set number next) {other : Nat}
    (h : number ≠ other) : after.stand? other = stage.stand? other := by
  rw [stand?, hset, List.getElem?_set_ne h]
  rfl

end Replaced

/-! ## One step of a strand -/

/-- What a step of a strand under a lock does: a strand that waits or has ended makes none; a strand that was let
in goes to work or stays at work, and no line changes; or a strand at work ends, and its lock is passed on. -/
inductive Stepped (stage : Stage) (number : Nat) (id : String) (strand : Strand) : Stage → Prop where
  | idle : strand.stand = .waiting ∨ strand.stand.IsSettled → Stepped stage number id strand stage
  | working (next : Strand) (new : List Turn) {after : Stage} :
      strand.stand.IsLetIn → next.Within id → next.stand.IsAtWork →
      after.strands = stage.strands.set number next → after.locks = stage.locks →
      after.turns.Perm (new ++ stage.turns) → (∀ turn ∈ new, turn.wait ≤ 3) →
      next.weight + (new.map Turn.cost).sum ≤ strand.weight → Stepped stage number id strand after
  | ended (name : String) (frame : Frame) (request : Nat) (outcome : SectionOutcome) :
      strand = ⟨name, [frame], .ending outcome⟩ → frame.id = id → frame.request? = some request →
      Stepped stage number id strand
        ((({ stage with locks := stage.locks.release id request } : Stage).grantNext request).setStrand number
          ⟨name, [], .settled outcome⟩)

namespace Stepped

variable {stage after : Stage} {number : Nat} {id : String} {strand next : Strand}

/-- The strand has the next turn. -/
theorem goesOn (hin : strand.stand.IsLetIn) (hnext : next.Within id) (hwork : next.stand.IsAtWork)
    (hweight : next.weight + 1 ≤ strand.weight) (hset : after.strands = stage.strands.set number next)
    (hlocks : after.locks = stage.locks) (hturns : after.turns = ⟨number, 0⟩ :: stage.turns) :
    Stepped stage number id strand after :=
  .working next [⟨number, 0⟩] hin hnext hwork hset hlocks (hturns ▸ .refl _) (by simp) hweight

/-- The strand goes to the end of the line of turns. -/
theorem queued {wait : Nat} (hwait : wait ≤ 3) (hin : strand.stand.IsLetIn) (hnext : next.Within id)
    (hwork : next.stand.IsAtWork) (hweight : next.weight + (wait + 1) ≤ strand.weight)
    (hset : after.strands = stage.strands.set number next) (hlocks : after.locks = stage.locks)
    (hturns : after.turns = stage.turns ++ [⟨number, wait⟩]) : Stepped stage number id strand after :=
  .working next [⟨number, wait⟩] hin hnext hwork hset hlocks (hturns ▸ List.perm_append_comm) (by simpa) hweight

end Stepped

/-- A section under a lock that counts as held runs at once, and no line changes. -/
theorem enterSection_of_held {held : List String} {id : String} (hheld : id ∈ held) (stage : Stage)
    (number : Nat) (name : String) (outer : List Frame) (body : List Instruction) (catches : Bool) :
    stage.enterSection number name outer held id body catches =
      (stage.setStrand number ⟨name, { id, held, rest := body, catches } :: outer, .running⟩).goOn number :=
  if_pos (List.contains_iff_mem.mpr hheld)

theorem grantNext_of_none {stage : Stage} {request : Nat} (hnone : stage.locks.successor? request = none) :
    stage.grantNext request = stage := by
  simp only [grantNext, hnone]

theorem grantNext_of_some {stage : Stage} {request next : Nat} {strand : Strand}
    (hnext : stage.locks.successor? request = some next) (hstrand : stage.strands[next]? = some strand) :
    stage.grantNext request =
      (stage.setStrand next { strand with stand := .granted }).enqueue next Turn.handover := by
  simp only [grantNext, hnext, hstrand]

section Steps

variable {stage : Stage} {number : Nat} {id : String} {strand : Strand} {name : String}

theorem endPatience_le (frame : Frame) : endPatience frame ≤ 3 := by
  unfold endPatience
  split <;> decide

theorem stepped_endSection {frame : Frame} {outer : List Frame} {outcome : SectionOutcome}
    (hin : strand.stand.IsLetIn) (hnested : Nested id (frame :: outer))
    (hweight : ((frame :: outer).map Frame.weight).sum + 4 ≤ strand.weight) :
    Stepped stage number id strand (stage.endSection number name frame outer outcome) := by
  have hle := endPatience_le frame
  refine .queued hle hin (.ending name outcome hnested) trivial ?_ rfl rfl rfl
  exact Nat.le_trans (Nat.add_le_add_left (Nat.succ_le_succ hle) _) hweight

/-- A section that goes on or ends keeps its strand at work. -/
theorem stepped_execute {frame : Frame} {outer : List Frame} {instruction : Instruction}
    (hin : strand.stand.IsLetIn) (hkeeps : instruction.KeepsTo id) (hframe : frame.Under id)
    (hnested : ∀ paused, Nested id ({ frame with paused } :: outer))
    (hweight : ((frame :: outer).map Frame.weight).sum + 4 + 16 * instruction.size ≤ strand.weight) :
    Stepped stage number id strand (stage.execute number name frame outer instruction) := by
  have hgoing := Strand.Within.running name (hnested frame.paused)
  have hpaused := Strand.Within.running name (hnested true)
  have hsize := instruction.one_le_size
  have hgoOn : Strand.weight ⟨name, frame :: outer, .running⟩ + 1 ≤ strand.weight := by
    change ((frame :: outer).map Frame.weight).sum + 4 + 1 ≤ strand.weight
    omega
  have hend := Nat.le_trans (Nat.le_add_right _ (16 * instruction.size)) hweight
  cases instruction with
  | log text => exact .goesOn hin hgoing trivial hgoOn rfl rfl rfl
  | tellHeld asked => exact .goesOn hin hgoing trivial hgoOn rfl rfl rfl
  | wait gate =>
    unfold execute
    dsimp only
    split
    · refine .queued (by decide) hin hpaused trivial ?_ rfl rfl rfl
      change ((frame :: outer).map Frame.weight).sum + 4 + 2 ≤ strand.weight
      omega
    · exact .working _ [] hin hpaused trivial rfl rfl (.refl _) (by simp) (Nat.le_of_succ_le hgoOn)
  | fail message => exact stepped_endSection hin (hnested frame.paused) hend
  | answer value => exact stepped_endSection hin (hnested frame.paused) hend
  | enter entered body catches =>
    obtain ⟨rfl, hbody⟩ := hkeeps
    have hheld : entered ∈ frame.held := by
      rw [hframe.held]
      exact List.mem_singleton_self entered
    have hinner : Frame.Under entered { id := entered, held := frame.held, rest := body, catches } :=
      ⟨rfl, hframe.held, hbody⟩
    change Stepped stage number entered strand (stage.enterSection number name _ frame.held entered body catches)
    rw [enterSection_of_held hheld]
    refine .goesOn hin (.running name (.inner hinner rfl (hnested true))) trivial ?_ rfl rfl rfl
    change 16 * sizeOfBody body + 5 + ((frame :: outer).map Frame.weight).sum + 4 + 1 ≤ strand.weight
    rw [Instruction.size] at hweight
    omega
  | spawn child entered body => exact hkeeps.elim

/-- The outer section of a strand under a lock goes on after an inner one. -/
theorem stepped_resume {inner : Frame} {outer : List Frame} {outcome : SectionOutcome}
    (hin : strand.stand.IsLetIn) (houter : Nested id outer)
    (hweight : (outer.map Frame.weight).sum + 5 ≤ strand.weight) :
    Stepped stage number id strand (stage.resume number name inner outer outcome) := by
  have hrunning := Strand.Within.running name houter
  have hend := Nat.le_of_succ_le hweight
  obtain ⟨frame, others, rfl⟩ := List.exists_cons_of_ne_nil houter.ne_nil
  unfold resume
  dsimp only
  split
  · exact .goesOn hin hrunning trivial hweight rfl rfl rfl
  · split
    · exact .goesOn hin hrunning trivial hweight rfl rfl rfl
    · exact stepped_endSection hin houter hend

theorem advance_of_none (hstrand : stage.strands[number]? = none) : stage.advance number = stage := by
  unfold advance
  rw [hstrand]

/-- Every step of a strand under a lock is one of those. -/
theorem stepped_advance (hstrand : stage.strands[number]? = some strand) (hwithin : strand.Within id) :
    Stepped stage number id strand (stage.advance number) := by
  unfold advance
  rw [hstrand]
  cases hwithin with
  | waiting name hframe howns => exact .idle (.inl rfl)
  | granted name hframe howns =>
    exact .goesOn (.inl rfl) (.running name (.outermost hframe howns)) trivial (Nat.le_refl _) rfl rfl rfl
  | running name hnested =>
    obtain ⟨frame, outer, rfl⟩ := List.exists_cons_of_ne_nil hnested.ne_nil
    dsimp only
    split
    · exact stepped_endSection (.inr trivial) hnested (Nat.le_refl _)
    · next instruction rest hrest =>
      have hbody := hnested.head_under.rest
      rw [hrest] at hbody
      refine stepped_execute (.inr trivial) hbody.1 (hnested.head_under.goesOn hbody.2 _)
        (fun paused ↦ hnested.goesOn hbody.2 paused) ?_
      simp only [Strand.weight, Stand.weight, List.map_cons, List.sum_cons, Frame.weight, hrest, sizeOfBody]
      omega
  | ending name outcome hnested =>
    cases hnested with
    | outermost hframe howns =>
      dsimp only
      obtain ⟨request, hrequest⟩ := Frame.request?_of_owns howns
      simp only [leaveSection, hrequest, hframe.id_eq]
      exact .ended name _ request outcome rfl hframe.id_eq hrequest
    | inner hframe howns houter =>
      dsimp only
      simp only [leaveSection, Frame.request?_of_found howns]
      refine stepped_resume (.inr trivial) houter ?_
      simp only [Strand.weight, Stand.weight, List.map_cons, List.sum_cons, Frame.weight]
      omega
  | settled name outcome => exact .idle (.inr trivial)

end Steps

end Stage

end ClusterMembership
