import StackTyping.Catalog.Growth
import StackTyping.Log
import StackTyping.Proofs.Catalog.Equiv
import StackTyping.Proofs.Catalog.Operations
import StackTyping.Proofs.Catalog.Grown
import StackTyping.Proofs.Catalog.Hierarchy
import StackTyping.Proofs.Catalog.Naming
import StackTyping.Proofs.Catalog.Subtype
import StackTyping.Proofs.Catalog.Conservation
import StackTyping.Proofs.Catalog.Search
import StackTyping.Proofs.Catalog.Spelling
import StackTyping.Proofs.Catalog.Correspondence
import StackTyping.Proofs.Catalog.Congruence
import StackTyping.Proofs.Traversal
import StackTyping.Proofs.Slot.Related
import StackTyping.Proofs.Slot.Assign
import StackTyping.Proofs.Slot.Narrowing
import StackTyping.Proofs.Slot.Order
import StackTyping.Proofs.Slot.Merge
import StackTyping.Proofs.Slot.Commute
import StackTyping.Proofs.Slot.Least
import StackTyping.Proofs.Slot.Congruence
import StackTyping.Proofs.Slot.Clash
import StackTyping.Proofs.Slot.Assoc
import StackTyping.Proofs.Stack
import StackTyping.Proofs.Code.Related
import StackTyping.Proofs.Fault
import StackTyping.Proofs.Layout.Accepted
import StackTyping.Proofs.Layout.Innermost
import StackTyping.Proofs.Layout.Nesting
import StackTyping.Proofs.Layout.WellNested
import StackTyping.Proofs.Layout.Outward
import StackTyping.Proofs.Layout.Control
import StackTyping.Proofs.Layout.Dispatch
import StackTyping.Proofs.Layout.Congruence
import StackTyping.Proofs.Layout.Words
import StackTyping.Proofs.Rule.Store
import StackTyping.Proofs.Rule.Operands
import StackTyping.Proofs.Rule.Relates
import StackTyping.Proofs.Rule.Narrowing
import StackTyping.Proofs.Rule.Congruence
import StackTyping.Proofs.Verify.Pass
import StackTyping.Proofs.Verify.Boxing
import StackTyping.Proofs.Verify.Consistency
import StackTyping.Proofs.Verify.Entry
import StackTyping.Proofs.Verify.Width
import StackTyping.Proofs.Verify.Table
import StackTyping.Proofs.Verify.Relaxing
import StackTyping.Proofs.Verify.Confinement
import StackTyping.Proofs.Verify.Congruence
import StackTyping.Proofs.Verify.Conservation
import StackTyping.Proofs.Verify.Words
import StackTyping.Proofs.Verify.Delegate
