import MosskeysWitness.Library.Utf8
import MosskeysWitness.Library.Lines
import MosskeysWitness.Library.Strings
import MosskeysWitness.Library.LastWins
import MosskeysWitness.Library.Merkle
import MosskeysWitness.Library.Net
import MosskeysWitness.Library.Volume
import MosskeysWitness.Crates
import MosskeysWitness.Record
import MosskeysWitness.Store
import MosskeysWitness.Replay
import MosskeysWitness.Log
import MosskeysWitness.Request
import MosskeysWitness.Witness
import MosskeysWitness.Tree
import MosskeysWitness.Server
import MosskeysWitness.Reference.Base64
import MosskeysWitness.Reference.Sha256
import MosskeysWitness.Reference.Json
import MosskeysWitness.Reference.Note
import MosskeysWitness.Reference.Log
import MosskeysWitness.Recovery
import MosskeysWitness.Durability
import MosskeysWitness.System
import MosskeysWitness.Reference.Run
import MosskeysWitness.Chain
import MosskeysWitness.StoredNote
import MosskeysWitness.SplitView
import MosskeysWitness.Timestamps
import MosskeysWitness.Honest
import MosskeysWitness.Taxonomy
import MosskeysWitness.Grammar
import MosskeysWitness.Monitoring
import MosskeysWitness.Schedule
import MosskeysWitness.Kinship
import MosskeysWitness.Isolation
import MosskeysWitness.Keygen
import MosskeysWitness.Config
import MosskeysWitness.Sync
import MosskeysWitness.Discovery
import MosskeysWitness.Reference.Feed
import MosskeysWitness.Rendering
import MosskeysWitness.ChangeCheck
import MosskeysWitness.Polling
import MosskeysWitness.Merge
import MosskeysWitness.Validator
import MosskeysWitness.AtomicWrite
import MosskeysWitness.Interleaving
import MosskeysWitness.Tracking
import MosskeysWitness.Checksum
import MosskeysWitness.Library.Folder
import MosskeysWitness.Reference.Keys
import MosskeysWitness.Identities
import MosskeysWitness.Minting
import MosskeysWitness.Library.Uri
import MosskeysWitness.Mounting
import MosskeysWitness.Availability
import MosskeysWitness.Ledger
import MosskeysWitness.Library.Delta
import MosskeysWitness.Library.WriteBack
import MosskeysWitness.Notices
import MosskeysWitness.PowerLoss
import MosskeysWitness.Provisioning
import MosskeysWitness.Retry
import MosskeysWitness.Trust
import MosskeysWitness.Surface
import MosskeysWitness.Peers
import MosskeysWitness.Reference.Fork
import MosskeysWitness.Evidence
import MosskeysWitness.Restore
