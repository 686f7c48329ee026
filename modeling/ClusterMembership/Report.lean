import ClusterMembership.Failure

/-!
# Reports of datanodes

What a datanode attaches to a registration or a heartbeat: the usage of its volumes, its layout versions and
the number of commands it still holds.  `NodeReport.usage` adds up the volumes that have not failed.
-/

namespace ClusterMembership

/-- Bytes of storage. -/
structure StorageUsage where
  capacity : Number
  used : Number
  remaining : Number
  deriving DecidableEq, Inhabited

namespace StorageUsage

def empty : StorageUsage := ⟨0, 0, 0⟩

def toValue (usage : StorageUsage) : Value :=
  .object [("capacity", .number usage.capacity), ("used", .number usage.used),
    ("remaining", .number usage.remaining)]

def ofField (field : Field) : StorageUsage :=
  ⟨(field.member "capacity").toNumber, (field.member "used").toNumber, (field.member "remaining").toNumber⟩

end StorageUsage

structure Volume where
  usage : StorageUsage
  failed : Bool
  deriving DecidableEq, Inhabited

def Volume.ofField (field : Field) : Volume :=
  ⟨⟨(field.member "capacity").toNumber, (field.member "scmUsed").toNumber,
    (field.member "remaining").toNumber⟩, (field.member "failed").isTruthy⟩

/-- The volumes of a datanode; `none` when the report lists none. -/
structure NodeReport where
  volumes : Option (List Volume)
  deriving DecidableEq, Inhabited

namespace StorageUsage

/-- Add the usage of a volume, unless the volume has failed. -/
def addVolume (total : StorageUsage) (volume : Volume) : StorageUsage :=
  if volume.failed then total
  else
    ⟨total.capacity + volume.usage.capacity, total.used + volume.usage.used,
      total.remaining + volume.usage.remaining⟩

end StorageUsage

namespace NodeReport

def ofField (field : Field) : NodeReport :=
  match field.member "storageReports" with
  | some (.list volumes) => ⟨some (volumes.map fun volume ↦ Volume.ofField (some volume))⟩
  | _ => ⟨none⟩

/-- The summed usage of the volumes that have not failed, or the refusal of a report without a list. -/
def usage (report : NodeReport) : Except Failure StorageUsage :=
  match report.volumes with
  | some volumes => .ok (volumes.foldl StorageUsage.addVolume .empty)
  | none => .error (.misshapen "report.storageReports is not iterable")

end NodeReport

/-- Layout versions of software and of stored metadata. -/
structure LayoutReport where
  software : Number
  metadata : Number
  deriving DecidableEq, Inhabited

namespace LayoutReport

def toValue (report : LayoutReport) : Value :=
  .object [("softwareLayoutVersion", .number report.software),
    ("metadataLayoutVersion", .number report.metadata)]

def ofField (field : Field) : LayoutReport :=
  ⟨(field.member "softwareLayoutVersion").toNumber, (field.member "metadataLayoutVersion").toNumber⟩

end LayoutReport

/-- The numbers of commands that a datanode still holds, by written kind. -/
abbrev HeldCounts := List (String × Number)

/-- What accompanies a heartbeat. -/
structure HeartbeatReport where
  nodeReport : Option NodeReport := none
  layout : Option LayoutReport := none
  heldCounts : Option HeldCounts := none
  deriving DecidableEq, Inhabited

def HeldCounts.ofField (field : Field) : HeldCounts :=
  (field.member "counts").members.map fun entry ↦ (entry.1, entry.2.toNumber)

def HeartbeatReport.ofField (field : Field) : HeartbeatReport where
  nodeReport := (field.member "nodeReport").read NodeReport.ofField
  layout := (field.member "layoutVersion").read LayoutReport.ofField
  heldCounts := (field.member "commandQueueReport").read HeldCounts.ofField

end ClusterMembership
