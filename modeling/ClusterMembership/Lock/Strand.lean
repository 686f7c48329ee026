import ClusterMembership.Lock.Script
import ClusterMembership.Lock.Tail
import ClusterMembership.Lock.Turn
import ClusterMembership.Value.Text

/-!
# Tasks under locks

A strand is a task that runs a script under locks.  Each section that it has entered is a frame, which knows the
locks that count as held in it.  Who enters a lock that counts as held goes on at once and asks for nothing; else the
strand asks for the lock, and waits for the tail that its request was chained to.  A spawned strand inherits what is
held where it is spawned, and keeps it even when the locks are left.

`Stage.advance` lets one strand make one step, and `Stage.settle` lets strands take turns until none can go on.
-/

namespace ClusterMembership

abbrev SectionOutcome := Except Failure Value

/-- A section that a strand has entered. -/
structure Frame where
  /-- The lock under which the section runs. -/
  id : String
  /-- The request with which the section has taken the lock; there is none when the lock was found held. -/
  request? : Option Nat := none
  /-- The locks that count as held. -/
  held : List String
  rest : List Instruction
  catches : Bool := false
  /-- Whether the section has waited since it began. -/
  paused : Bool := false

def Frame.owns (frame : Frame) : Bool := frame.request?.isSome

/-- Where a strand stands, with respect to its innermost frame. -/
inductive Stand where
  /-- The tail that the request of the section was chained to is not resolved. -/
  | waiting
  /-- That tail is resolved, or the request was chained to none. -/
  | granted
  | running
  /-- The section has ended and its lock is about to be left. -/
  | ending (outcome : SectionOutcome)
  /-- The lock has been left, and the outer section is about to go on. -/
  | left (outcome : SectionOutcome)
  | settled (outcome : SectionOutcome)

/-- A task that runs a script; the innermost frame comes first. -/
structure Strand where
  name : String
  frames : List Frame
  stand : Stand

namespace Strand

def outcome? (strand : Strand) : Option SectionOutcome :=
  match strand.stand with
  | .settled outcome => some outcome
  | _ => none

/-- A bound on the number of instructions that a strand has yet to run. -/
def size (strand : Strand) : Nat :=
  strand.frames.foldl (fun total frame ↦ total + sizeOfBody frame.rest + 1) 0

end Strand

/-- Strands, the requests for locks, the line of turns, the gates that are open, the strands that wait at
gates in the order in which they came, and the lines written. -/
structure Stage where
  strands : List Strand := []
  locks : LockTails := {}
  turns : List Turn := []
  gates : List String := []
  parked : List (String × Nat) := []
  log : List String := []

namespace Stage

def setStrand (stage : Stage) (number : Nat) (strand : Strand) : Stage :=
  { stage with strands := stage.strands.set number strand }

def enqueue (stage : Stage) (number wait : Nat) : Stage :=
  { stage with turns := stage.turns ++ [⟨number, wait⟩] }

/-- Let a strand have the next turn. -/
def goOn (stage : Stage) (number : Nat) : Stage := { stage with turns := ⟨number, 0⟩ :: stage.turns }

def write (stage : Stage) (strand : Strand) (text : String) : Stage :=
  { stage with log := stage.log ++ [s!"{strand.name}:{text}"] }

/-- Put a strand with a new innermost section in its place: it runs when the lock counts as held, and else asks for
the lock. -/
def enterSection (stage : Stage) (number : Nat) (name : String) (outer : List Frame) (held : List String)
    (id : String) (body : List Instruction) (catches : Bool) : Stage :=
  if held.contains id then
    let frame : Frame := { id, held, rest := body, catches }
    (stage.setStrand number ⟨name, frame :: outer, .running⟩).goOn number
  else
    let request := stage.locks.requests.length
    let frame : Frame := { id, request? := some request, held := id :: held, rest := body, catches }
    let asked : Stage := { stage with locks := stage.locks.ask id number }
    if asked.locks.isAdmitted request then
      (asked.setStrand number ⟨name, frame :: outer, .granted⟩).enqueue number 1
    else asked.setStrand number ⟨name, frame :: outer, .waiting⟩

def addStrand (stage : Stage) (name : String) (held : List String) (id : String)
    (body : List Instruction) : Stage :=
  let number := stage.strands.length
  let added : Stage := { stage with strands := stage.strands ++ [⟨name, [], .waiting⟩] }
  added.enterSection number name [] held id body false

/-- The number of turns between the end of a section and what follows: a section that never waited takes one
more. -/
def endPatience (frame : Frame) : Nat := if frame.paused then 2 else 3

def endSection (stage : Stage) (number : Nat) (name : String) (frame : Frame) (outer : List Frame)
    (outcome : SectionOutcome) : Stage :=
  (stage.setStrand number ⟨name, frame :: outer, .ending outcome⟩).enqueue number (endPatience frame)

/-- Let the outer section of a strand go on after an inner one. -/
def resume (stage : Stage) (number : Nat) (name : String) (inner : Frame) (outer : List Frame)
    (outcome : SectionOutcome) : Stage :=
  match outer with
  | [] => stage.setStrand number ⟨name, [], .settled outcome⟩
  | frame :: others =>
    let going : Strand := ⟨name, frame :: others, .running⟩
    match outcome with
    | .ok value => ((stage.setStrand number going).write going s!"left {inner.id} {value.json}").goOn number
    | .error failure =>
      if inner.catches then
        ((stage.setStrand number going).write going s!"caught {failure.message}").goOn number
      else stage.endSection number name frame others (.error failure)

/-- Let the strand go on that has waited for the tail of a request. -/
def grantNext (stage : Stage) (request : Nat) : Stage :=
  match stage.locks.successor? request with
  | none => stage
  | some number =>
    match stage.strands[number]? with
    | some strand =>
      (stage.setStrand number { strand with stand := .granted }).enqueue number Turn.handover
    | none => stage

/-- Release the request of a section that has ended, or go on at once if the section made none. -/
def leaveSection (stage : Stage) (number : Nat) (name : String) (frame : Frame) (outer : List Frame)
    (outcome : SectionOutcome) : Stage :=
  match frame.request? with
  | none => stage.resume number name frame outer outcome
  | some request =>
    let left : Stage := { stage with locks := stage.locks.release frame.id request }
    let passed := left.grantNext request
    if outer.isEmpty then passed.resume number name frame outer outcome
    else (passed.setStrand number ⟨name, frame :: outer, .left outcome⟩).enqueue number 1

/-- Run an instruction of the innermost section of a strand; `frame` is what the section goes on with. -/
def execute (stage : Stage) (number : Nat) (name : String) (frame : Frame) (outer : List Frame)
    (instruction : Instruction) : Stage :=
  let going : Strand := ⟨name, frame :: outer, .running⟩
  let paused : Frame := { frame with paused := true }
  match instruction with
  | .log text => ((stage.setStrand number going).write going text).goOn number
  | .tellHeld id =>
    let answer := if frame.held.contains id then "true" else "false"
    ((stage.setStrand number going).write going s!"held {id} {answer}").goOn number
  | .wait gate =>
    let resting := stage.setStrand number ⟨name, paused :: outer, .running⟩
    if stage.gates.contains gate then resting.enqueue number 1
    else { resting with parked := resting.parked ++ [(gate, number)] }
  | .fail message => stage.endSection number name frame outer (.error (.error message))
  | .answer value => stage.endSection number name frame outer (.ok value)
  | .enter id body catches => stage.enterSection number name (paused :: outer) frame.held id body catches
  | .spawn child id body => ((stage.setStrand number going).goOn number).addStrand child frame.held id body

/-- Let a strand make one step. -/
def advance (stage : Stage) (number : Nat) : Stage :=
  match stage.strands[number]? with
  | some ⟨name, frame :: outer, .granted⟩ =>
    (stage.setStrand number ⟨name, frame :: outer, .running⟩).goOn number
  | some ⟨name, frame :: outer, .running⟩ =>
    match frame.rest with
    | [] => stage.endSection number name frame outer (.ok .null)
    | instruction :: rest => stage.execute number name { frame with rest } outer instruction
  | some ⟨name, frame :: outer, .ending outcome⟩ => stage.leaveSection number name frame outer outcome
  | some ⟨name, frame :: outer, .left outcome⟩ => stage.resume number name frame outer outcome
  | _ => stage

/-- Let turns pass, at most as many as given. -/
def settleWithin : Nat → Stage → Stage
  | 0, stage => stage
  | bound + 1, stage =>
    match stage.turns with
    | [] => stage
    | turn :: rest =>
      let waiting : Stage := { stage with turns := rest }
      if turn.isDue then settleWithin bound (waiting.advance turn.task)
      else settleWithin bound { waiting with turns := rest ++ [turn.passed] }

/-- A bound on the number of turns until no strand can go on. -/
def turnsLeft (stage : Stage) : Nat :=
  let left := stage.strands.foldl (fun total strand ↦ total + strand.size) 0
  16 * (left + stage.turns.length + 1)

/-- Let turns pass until no strand can go on. -/
def settle (stage : Stage) : Stage := settleWithin stage.turnsLeft stage

/-- Open a gate: those who wait at it go on, in the order in which they came. -/
def openGate (stage : Stage) (gate : String) : Stage :=
  let (passing, parked) := stage.parked.partition fun entry ↦ entry.1 = gate
  { stage with
    gates := gate :: stage.gates
    parked := parked
    turns := stage.turns ++ passing.map fun entry ↦ ⟨entry.2, 1⟩ }

/-- Make a step of a script, with a new log, and let turns pass. -/
def perform (stage : Stage) (step : ScriptStep) : Stage :=
  let fresh : Stage := { stage with log := [] }
  match step with
  | .start name id body => (fresh.addStrand name [] id body).settle
  | .openGate gate => (fresh.openGate gate).settle

/-- The strands that have ended, by name, among those that had not at an earlier stage. -/
def settledSince (stage earlier : Stage) : List (String × SectionOutcome) :=
  stage.strands.zipIdx.filterMap fun (strand, number) ↦
    if ((earlier.strands[number]?).bind Strand.outcome?).isSome then none
    else strand.outcome?.map fun outcome ↦ (strand.name, outcome)

end Stage

end ClusterMembership
