import Provenance.Cache.Crowd
import Provenance.Main
import Provenance.Proofs.Bytecode.Template
import Provenance.Proofs.Bytecode.Substitution
import Provenance.Proofs.Dictionary
import Provenance.Proofs.Bytecode.Places
import Provenance.Proofs.Bytecode.Linking
import Provenance.Proofs.Bytecode.Trailer
import Provenance.Proofs.Session
import Provenance.Proofs.Bytecode.Comparison
import Provenance.Proofs.Bytecode.Matches
import Provenance.Proofs.Bytecode.CreationInput
import Provenance.Proofs.Cache.Memory
import Provenance.Proofs.Cache.Transition
import Provenance.Proofs.Cache.Locks
import Provenance.Proofs.Cache.Abandonment
import Provenance.Proofs.Cache.Knowledge
import Provenance.Proofs.Cache.Downloads
import Provenance.Proofs.Disk.Name
import Provenance.Proofs.Disk.Change
import Provenance.Proofs.Cache.Names
import Provenance.Proofs.Cache.Files
import Provenance.Proofs.Cache.Progress
import Provenance.Proofs.Cache.Once
import Provenance.Proofs.Cache.Truth
import Provenance.Proofs.Cache.Alone
import Provenance.Proofs.Agreement
import Provenance.Proofs.Cache.Ensuring
import Provenance.Proofs.Compiler.Recompilation
import Provenance.Proofs.Independence
import Provenance.Proofs.Cache.Provision
import Provenance.Proofs.Compiler.Running
import Provenance.Proofs.Verification.Effects
import Provenance.Proofs.Service.Answers
import Provenance.Proofs.Json.Reading
import Provenance.Proofs.Json.Decoding
import Provenance.Proofs.Json.Records
import Provenance.Proofs.Metadata.Fields
import Provenance.Proofs.Json.Printing
import Provenance.Proofs.Json.RoundTrip
import Provenance.Proofs.Metadata.Forms
import Provenance.Proofs.Json.Members
import Provenance.Proofs.Json.Parts
import Provenance.Proofs.Metadata.Libraries
import Provenance.Proofs.Metadata.Sources
import Provenance.Proofs.Metadata.Settings
import Provenance.Proofs.Metadata.CompilerInput
import Provenance.Proofs.Compiler.Course
import Provenance.Proofs.Compiler.Confinement
import Provenance.Proofs.Verification.Confinement
import Provenance.Proofs.Disk.Directories
import Provenance.Proofs.Release.Writing
import Provenance.Proofs.Release.Installation
import Provenance.Proofs.Json.FreeForm
import Provenance.Proofs.Json.Restoring
import Provenance.Proofs.Wire
import Provenance.Proofs.Disk.Likeness
import Provenance.Proofs.Cache.Views
import Provenance.Proofs.Cache.Footprint
import Provenance.Proofs.Cache.Renumbering
import Provenance.Proofs.Cache.Commutation
import Provenance.Proofs.Bytecode.Simultaneous
import Provenance.Proofs.Bytecode.Marks
import Provenance.Proofs.Text.Order
import Provenance.Proofs.Compiler.Resolution
import Provenance.Proofs.Text.Lowercase
import Provenance.Proofs.Address
import Provenance.Proofs.Verification.Addresses
import Provenance.Proofs.Metadata.Nesting
import Provenance.Proofs.Reports
import Provenance.Proofs.Cache.Failures
import Provenance.Proofs.Compiler.Flawless
import Provenance.Proofs.Json.Bare
import Provenance.Proofs.Json.Insertion
import Provenance.Proofs.Metadata.Omission
import Provenance.Proofs.Closure
import Provenance.Proofs.Bytecode.Spelling
import Provenance.Proofs.Log.Spans
import Provenance.Proofs.Log.Columns
import Provenance.Proofs.Log.Documents
import Provenance.Proofs.Http.Course
import Provenance.Proofs.Json.Detached
import Provenance.Proofs.Chain.Indexer
import Provenance.Proofs.Chain.Replies
import Provenance.Proofs.Chain.Endpoints
import Provenance.Proofs.Bytecode.LengthField
import Provenance.Proofs.Bytecode.Scan
import Provenance.Proofs.Service.Documents
import Provenance.Proofs.Archive.Members
import Provenance.Proofs.Archive.Stored
import Provenance.Proofs.Release.Unpacking
