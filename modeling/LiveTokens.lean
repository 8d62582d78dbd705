import LiveTokens.Main
import LiveTokens.Scanner.Samples
import LiveTokens.Slot.Counter
import LiveTokens.Proofs.Measurement
import LiveTokens.Proofs.Excision
import LiveTokens.Proofs.Splice
import LiveTokens.Proofs.Tiling
import LiveTokens.Proofs.Merge
import LiveTokens.Proofs.Stages
import LiveTokens.Proofs.Order
import LiveTokens.Proofs.Rebuild
import LiveTokens.Proofs.Assembly
import LiveTokens.Proofs.Convergence
import LiveTokens.Proofs.Exactness
import LiveTokens.Proofs.Hosting
import LiveTokens.Proofs.UpToDate
import LiveTokens.Proofs.Session
import LiveTokens.Proofs.Notices
import LiveTokens.Proofs.Returning
import LiveTokens.Proofs.Verification
import LiveTokens.Proofs.Patching
import LiveTokens.Proofs.Numbering
import LiveTokens.Proofs.Coverage
import LiveTokens.Proofs.Atomicity
import LiveTokens.Proofs.Locality
import LiveTokens.Proofs.Agreement
import LiveTokens.Proofs.Appearance
import LiveTokens.Proofs.Likeness
import LiveTokens.Proofs.Feeds
import LiveTokens.Proofs.Compaction
import LiveTokens.Proofs.ParallelRuns
import LiveTokens.Proofs.Segmentation
import LiveTokens.Proofs.LongestMatch
import LiveTokens.Proofs.AssemblyPatterns
import LiveTokens.Proofs.Bytes
import LiveTokens.Proofs.Survival
import LiveTokens.Proofs.Forks
import LiveTokens.Proofs.Contention
import LiveTokens.Proofs.Announcements
import LiveTokens.Proofs.Awaiting
import LiveTokens.Proofs.LogBound
import LiveTokens.Proofs.Operations
import LiveTokens.Proofs.Resynchronisation
import LiveTokens.Proofs.Isolation
import LiveTokens.Proofs.AssemblyGrammar
import LiveTokens.Proofs.CanonicalStreams
import LiveTokens.Proofs.Placement
import LiveTokens.Proofs.Joining
import LiveTokens.Proofs.EditHistory
import LiveTokens.Proofs.Queries
import LiveTokens.Proofs.Removal
import LiveTokens.Proofs.Insertion
import LiveTokens.Proofs.Reanchoring
import LiveTokens.Proofs.EndlessSpans
import LiveTokens.Proofs.Emission
import LiveTokens.Proofs.Polling
import LiveTokens.Proofs.Superseding
import LiveTokens.Proofs.EditArguments
import LiveTokens.Proofs.SettingsLines
