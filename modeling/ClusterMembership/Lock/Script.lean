import ClusterMembership.Failure

/-!
# Scripts for locks

A script says what several tasks do under the locks of datanodes: write lines, wait at gates, enter further locks
and start other tasks.  It starts tasks from outside any lock and opens gates.
-/

namespace ClusterMembership

/-- What a section of code under a lock does. -/
inductive Instruction where
  /-- Write a line. -/
  | log (text : String)
  /-- Write whether a lock is held. -/
  | tellHeld (id : String)
  /-- Wait until a gate is open. -/
  | wait (gate : String)
  /-- End the section with an error. -/
  | fail (message : String)
  /-- End the section with a value. -/
  | answer (value : Value)
  /-- Run a section under a lock and wait for it; an error of it is caught, or ends this section too. -/
  | enter (id : String) (body : List Instruction) (catches : Bool)
  /-- Start a task that runs a section under a lock, without waiting for it. -/
  | spawn (name id : String) (body : List Instruction)
  deriving Inhabited

mutual

def Instruction.size : Instruction → Nat
  | .enter _ body _ => sizeOfBody body + 1
  | .spawn _ _ body => sizeOfBody body + 1
  | _ => 1

def sizeOfBody : List Instruction → Nat
  | [] => 0
  | instruction :: rest => instruction.size + sizeOfBody rest

end

inductive ScriptStep where
  /-- Start a task from outside any lock. -/
  | start (name id : String) (body : List Instruction)
  | openGate (gate : String)

end ClusterMembership
