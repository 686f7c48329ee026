import ClusterMembership.Lock.Strand

/-!
# Runs of a stage

A run of moves starts tasks, opens gates and lets strands make steps.  A strand may make its next step at any time, also
while it waits at a gate, so a run lets tasks end in any order, by a value or by an error; the steps of a script are
such runs.
-/

namespace ClusterMembership

inductive StageMove where
  /-- A task is started from outside any lock. -/
  | start (name id : String) (body : List Instruction)
  | openGate (gate : String)
  /-- A strand makes its next step. -/
  | go (number : Nat)
  /-- The first in the line of turns takes its turn or lets it pass. -/
  | turn

/-- The lock that a task is started for. -/
def StageMove.asked? : StageMove → Option String
  | .start _ id _ => some id
  | _ => none

namespace Stage

/-- Let the first in the line take its turn or let it pass. -/
def passTurn (stage : Stage) : Stage :=
  match stage.turns with
  | [] => stage
  | turn :: rest =>
    let waiting : Stage := { stage with turns := rest }
    if turn.isDue then waiting.advance turn.task
    else { waiting with turns := rest ++ [turn.passed] }

def move (stage : Stage) : StageMove → Stage
  | .start name id body => ({ stage with log := [] } : Stage).addStrand name [] id body
  | .openGate gate => ({ stage with log := [] } : Stage).openGate gate
  | .go number => stage.advance number
  | .turn => stage.passTurn

/-- Where a run of moves leads. -/
def after (stage : Stage) (moves : List StageMove) : Stage := moves.foldl move stage

end Stage

end ClusterMembership
