import ClusterMembership.Node.Details
import ClusterMembership.OrderedMap

/-!
# Known datanodes

The index keeps the descriptive attributes of every datanode that tried to register, also of one that the
topology refused.
-/

namespace ClusterMembership

/-- The descriptors of the datanodes seen so far. -/
structure KnownNodes where
  descriptors : OrderedMap Descriptor
  deriving DecidableEq, Inhabited

namespace KnownNodes

def empty : KnownNodes := ⟨.empty⟩

def peek (known : KnownNodes) (id : String) : Option Descriptor := known.descriptors.get? id

/-- The descriptor of a datanode, the empty one when it was never seen. -/
def get (known : KnownNodes) (id : String) : Descriptor := (known.peek id).getD .empty

def record (known : KnownNodes) (details : Details) : KnownNodes :=
  ⟨known.descriptors.insert details.id details.descriptor⟩

/-- Put back what was stored for a datanode earlier; nothing means that it was not known. -/
def restore (known : KnownNodes) (id : String) (descriptor : Option Descriptor) : KnownNodes :=
  ⟨known.descriptors.restore id descriptor⟩

def erase (known : KnownNodes) (id : String) : KnownNodes := ⟨known.descriptors.erase id⟩

@[simp]
theorem peek_empty (id : String) : empty.peek id = none := rfl

theorem peek_record (known : KnownNodes) (details : Details) (id : String) :
    (known.record details).peek id =
      if details.id = id then some details.descriptor else known.peek id :=
  OrderedMap.get?_insert known.descriptors details.id id details.descriptor

theorem peek_restore (known : KnownNodes) (restored id : String) (descriptor : Option Descriptor) :
    (known.restore restored descriptor).peek id =
      if restored = id then descriptor else known.peek id :=
  OrderedMap.get?_restore known.descriptors restored id descriptor

theorem peek_erase (known : KnownNodes) (erased id : String) :
    (known.erase erased).peek id = if erased = id then none else known.peek id :=
  OrderedMap.get?_erase known.descriptors erased id

end KnownNodes

end ClusterMembership
