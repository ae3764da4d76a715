import ClassLattice.ClassFile.Header
import ClassLattice.ClassPath.TypeReader
import ClassLattice.Config.LogFilter
import ClassLattice.Session.Basic
import ClassLattice.Session.OnDisk
import ClassLattice.Proofs.Operation.Ancestors
import ClassLattice.Proofs.Operation.Edges
import ClassLattice.Proofs.Operation.Entries
import ClassLattice.Proofs.Operation.Failure
import ClassLattice.Proofs.Operation.Identity
import ClassLattice.Proofs.Operation.InCommon
import ClassLattice.Proofs.Operation.Assignment
import ClassLattice.Proofs.Operation.Memory
import ClassLattice.Proofs.Operation.Pinned
import ClassLattice.Proofs.Operation.Reading
import ClassLattice.Proofs.Operation.Resolution
import ClassLattice.Proofs.Operation.Retention
import ClassLattice.Proofs.Operation.Termination
import ClassLattice.Proofs.Operation.Typed
import ClassLattice.Proofs.Query.Malformed
import ClassLattice.Proofs.ClassFile.Cut
import ClassLattice.Proofs.ClassFile.ModifiedUtf8
import ClassLattice.Proofs.ClassPath.PlainScan
import ClassLattice.Proofs.ClassPath.Probe
import ClassLattice.Proofs.Config.Decode
import ClassLattice.Proofs.Config.LogFilter
