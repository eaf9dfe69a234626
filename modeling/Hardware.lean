import Hardware.Attr
import Hardware.Attr.Canonical
import Hardware.Binding
import Hardware.Constant
import Hardware.Constant.Fit
import Hardware.Declaration
import Hardware.DerivedName
import Hardware.Design
import Hardware.Design.Building
import Hardware.Design.Printing
import Hardware.Design.Verification
import Hardware.Effect
import Hardware.Error
import Hardware.Fault
import Hardware.Generation
import Hardware.Handle
import Hardware.Ident
import Hardware.Instantiation
import Hardware.Machine
import Hardware.Metadata
import Hardware.Module
import Hardware.ModuleOp
import Hardware.NameSupply
import Hardware.Operation
import Hardware.OrderedMap
import Hardware.Perform
import Hardware.Ports
import Hardware.Production
import Hardware.Scope
import Hardware.Script
import Hardware.Signal
import Hardware.SignalType
import Hardware.Signature
import Hardware.System
import Hardware.Text.CodePoints
import Hardware.Text.Quoted
import Hardware.Value
import Hardware.Workspace
import Hardware.Proofs.Design
import Hardware.Proofs.Invariant
import Hardware.Proofs.Change
import Hardware.Proofs.Activation
import Hardware.Proofs.Attempt
import Hardware.Proofs.Checked
import Hardware.Proofs.Filled
import Hardware.Proofs.Leftover
import Hardware.Proofs.Lifecycle
import Hardware.Proofs.Orderly
import Hardware.Proofs.Rollback
import Hardware.Proofs.Stacks
import Hardware.Proofs.Scopes
import Hardware.Proofs.Placement
import Hardware.Proofs.KeyOrder
import Hardware.Proofs.Canonical
import Hardware.Proofs.Dictionary
import Hardware.Proofs.Signature
import Hardware.Proofs.Symbols
import Hardware.Proofs.Ownership
import Hardware.Proofs.Caches
import Hardware.Proofs.Words
import Hardware.Proofs.Wrapping
import Hardware.Proofs.Finality
import Hardware.Proofs.Instances
import Hardware.Proofs.Parameters
import Hardware.Proofs.Atomicity
import Hardware.Proofs.Numbering
import Hardware.Proofs.Wiring
import Hardware.Proofs.Recursion
import Hardware.Proofs.Queue
import Hardware.Proofs.Traversal
import Hardware.Proofs.FirstFree
import Hardware.Proofs.Binding
import Hardware.Proofs.Naming
import Hardware.Proofs.InstanceNames
import Hardware.Proofs.Declared
import Hardware.Proofs.Termination
import Hardware.Proofs.CallStyles
import Hardware.Proofs.Assignment
import Hardware.Proofs.TiedInputs
import Hardware.Proofs.Delivery
import Hardware.Proofs.Decimal
import Hardware.Proofs.TypeText
import Hardware.Proofs.ValueNames
import Hardware.Proofs.DerivedName
import Hardware.Proofs.Reservation
