import ClassLoading.Class.Display
import ClassLoading.Class.Instruction
import ClassLoading.Class.Writer
import ClassLoading.Loader
import ClassLoading.Memory.HugePages
import ClassLoading.Memory.Script
import ClassLoading.Proofs.RobinHood
import ClassLoading.Proofs.TableSteps
import ClassLoading.Proofs.TableRuns
import ClassLoading.Proofs.Growth
import ClassLoading.Proofs.RegistryRuns
import ClassLoading.Proofs.Insertions
import ClassLoading.Proofs.LoadFactor
import ClassLoading.Proofs.Commits
import ClassLoading.Proofs.Visits
import ClassLoading.Proofs.Layout
import ClassLoading.Proofs.Searches
import ClassLoading.Proofs.Characters
import ClassLoading.Proofs.ClassForm
import ClassLoading.Proofs.Prefixes
import ClassLoading.Proofs.Limits
import ClassLoading.Proofs.Truncations
import ClassLoading.Proofs.Encodings
import ClassLoading.Proofs.Varints
import ClassLoading.Proofs.WriterSteps
import ClassLoading.Proofs.WriterRuns
import ClassLoading.Proofs.Interning
import ClassLoading.Proofs.Lengths
import ClassLoading.Proofs.Batches
import ClassLoading.Proofs.ArenaRuns
import ClassLoading.Proofs.Freezing
import ClassLoading.Proofs.Releases
import ClassLoading.Proofs.Resolution
import ClassLoading.Proofs.LinearProbing
import ClassLoading.Proofs.CheckedSlots
import ClassLoading.Proofs.CheckedTables
import ClassLoading.Proofs.HugePages
import ClassLoading.Proofs.NameHashes
import ClassLoading.Proofs.CursorRuns
