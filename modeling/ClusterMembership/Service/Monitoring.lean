import ClusterMembership.Service.World

/-!
# Monitoring

While monitoring is on, a sweep runs at a fixed interval after the start, with the clock at the time when it is
due.
-/

namespace ClusterMembership

namespace Manager

/-- The interval between sweeps in whole milliseconds, at least one. -/
def sweepInterval (manager : Manager) : Int :=
  max 1 (manager.configuration.checkInterval.truncate?.getD 1)

def isMonitoring (manager : Manager) : Bool := manager.nextSweep.isSome

def startMonitoring (manager : Manager) : Manager :=
  if manager.isMonitoring then manager
  else
    let noted := manager.note
      { component, level := .info, message := "Starting heartbeat monitoring"
        context :=
          [("intervalMs", .number manager.configuration.checkInterval),
            ("staleNodeIntervalMs", .number manager.configuration.staleInterval),
            ("deadNodeIntervalMs", .number manager.configuration.deadInterval)] }
    { noted with nextSweep := some (manager.clock + manager.sweepInterval) }

def stopMonitoring (manager : Manager) : Manager :=
  if manager.isMonitoring then
    let stopped : Manager := { manager with nextSweep := none }
    stopped.note { component, level := .info, message := "Stopped heartbeat monitoring" }
  else manager

def dispose (manager : Manager) : Manager :=
  manager.stopMonitoring.note { component, level := .info, message := "NodeManager disposed" }

/-- Run the sweeps that are due until a time, at most as many as given. -/
def runSweeps : Nat → Manager → Instant → Manager
  | 0, manager, _ => manager
  | bound + 1, manager, target =>
    match manager.nextSweep with
    | none => manager
    | some due =>
      if due ≤ target then
        let waiting : Manager :=
          { manager with clock := due, nextSweep := some (due + manager.sweepInterval) }
        runSweeps bound (waiting.checkHeartbeats due).1 target
      else manager

/-- A bound on the number of sweeps that are due until a time. -/
def sweepsUntil (manager : Manager) (target : Instant) : Nat :=
  match manager.nextSweep with
  | none => 0
  | some due => ((target - due) / manager.sweepInterval + 1).toNat

def advance (manager : Manager) (milliseconds : Int) : Manager :=
  let target := manager.clock + milliseconds
  { manager.runSweeps (manager.sweepsUntil target) target with clock := target }

end Manager

namespace Service

/-- Stop what runs by itself; an observer forgets what it has seen. -/
def dispose (service : Service) : Service where
  manager := service.manager.dispose
  observer := service.observer.map fun observer ↦ { observer with tracker := .empty }

end Service

end ClusterMembership
