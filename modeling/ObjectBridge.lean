import ObjectBridge.Enumeration.Member
import ObjectBridge.Proofs.Arena.Seating
import ObjectBridge.Proofs.Call.Spelling
import ObjectBridge.Proofs.Enumeration.Algebra
import ObjectBridge.Proofs.Enumeration.FlagReading
import ObjectBridge.Proofs.Enumeration.Reading
import ObjectBridge.Proofs.Script.Bodies
import ObjectBridge.Proofs.Session.Arguments
import ObjectBridge.Proofs.Session.Assignment
import ObjectBridge.Proofs.Session.Circles
import ObjectBridge.Proofs.Session.ConstFlags
import ObjectBridge.Proofs.Session.Counts
import ObjectBridge.Proofs.Session.Deferral
import ObjectBridge.Proofs.Session.Detached
import ObjectBridge.Proofs.Session.Dispatching
import ObjectBridge.Proofs.Session.Events
import ObjectBridge.Proofs.Session.Failing
import ObjectBridge.Proofs.Session.Frames
import ObjectBridge.Proofs.Session.Handlers
import ObjectBridge.Proofs.Session.Identity
import ObjectBridge.Proofs.Session.Inherited
import ObjectBridge.Proofs.Session.Iteration
import ObjectBridge.Proofs.Session.Keeping
import ObjectBridge.Proofs.Session.NearestConstructor
import ObjectBridge.Proofs.Session.NilResults
import ObjectBridge.Proofs.Session.Operands
import ObjectBridge.Proofs.Session.Protected
import ObjectBridge.Proofs.Session.ReadOnly
import ObjectBridge.Proofs.Session.Retention
import ObjectBridge.Proofs.Session.SharedBox
import ObjectBridge.Proofs.Value.InsertionOrder
import ObjectBridge.Proofs.Value.Truncation
import ObjectBridge.Workbench
