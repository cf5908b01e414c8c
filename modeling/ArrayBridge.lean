import ArrayBridge.Bridge.Edit
import ArrayBridge.Bridge.Payload
import ArrayBridge.Declaration.Written
import ArrayBridge.Registry.Body
import ArrayBridge.Scope
import ArrayBridge.Proofs.World.Ledger
import ArrayBridge.Proofs.Run
import ArrayBridge.Proofs.Run.Frame
import ArrayBridge.Proofs.World.Sound
import ArrayBridge.Proofs.Bridge.Course
import ArrayBridge.Proofs.Bridge.Operations
import ArrayBridge.Proofs.Run.Step
import ArrayBridge.Proofs.Bridge.References
import ArrayBridge.Proofs.Number.Conversion
import ArrayBridge.Proofs.Object.Death
import ArrayBridge.Proofs.World.Codec
import ArrayBridge.Proofs.Bridge.Contents
import ArrayBridge.Proofs.Bridge.Writes
import ArrayBridge.Proofs.Run.Script
import ArrayBridge.Proofs.Bridge.Freshness
import ArrayBridge.Proofs.Bridge.Views
import ArrayBridge.Proofs.Registry.Consistency
import ArrayBridge.Proofs.Registry.Members
import ArrayBridge.Proofs.Bridge.Accessors
import ArrayBridge.Proofs.Registry.PropertyAccess
import ArrayBridge.Proofs.Table.Ids
import ArrayBridge.Proofs.World.Cascade
import ArrayBridge.Proofs.World.Order
import ArrayBridge.Proofs.World.Settling
import ArrayBridge.Proofs.Number.Value
import ArrayBridge.Proofs.Object.TypedHandles
import ArrayBridge.Proofs.Registry.Nearest
import ArrayBridge.Proofs.World.Faithful
import ArrayBridge.Proofs.Bridge.Backing
import ArrayBridge.Proofs.Bridge.Isolation
import ArrayBridge.Proofs.Bridge.Validation
import ArrayBridge.Proofs.Registry.Remains
import ArrayBridge.Proofs.Declaration.Exports
import ArrayBridge.Proofs.Bridge.WriteBack
import ArrayBridge.Proofs.Bridge.Admission
import ArrayBridge.Proofs.Class.Inheritance
import ArrayBridge.Proofs.World.Equality
import ArrayBridge.Proofs.World.Holding
import ArrayBridge.Proofs.World.Confluence
import ArrayBridge.Proofs.World.Deferral
import ArrayBridge.Proofs.World.Mutation
import ArrayBridge.Proofs.Bridge.Editing
import ArrayBridge.Proofs.Bridge.Session
import ArrayBridge.Proofs.Bridge.Rebuilding
import ArrayBridge.Proofs.Bridge.Copying
import ArrayBridge.Proofs.Bridge.ReadModifyWrite
import ArrayBridge.Proofs.Registry.Reordering
import ArrayBridge.Proofs.World.Revision
