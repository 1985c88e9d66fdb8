import Cleartext.Archive.Candidate
import Cleartext.Archive.Checksum
import Cleartext.Archive.Deflate
import Cleartext.Archive.Directory
import Cleartext.Archive.Entry
import Cleartext.Archive.Location
import Cleartext.Archive.Write
import Cleartext.Bytes
import Cleartext.Class.Build
import Cleartext.Class.Constant
import Cleartext.Class.File
import Cleartext.Class.Layout
import Cleartext.Class.Listing
import Cleartext.Class.Pool
import Cleartext.Class.References
import Cleartext.Class.Shrink
import Cleartext.Class.Tag
import Cleartext.Code.Editor
import Cleartext.Code.Instruction
import Cleartext.Code.Opcode
import Cleartext.Code.StackMap
import Cleartext.Command.Classes
import Cleartext.Command.Console
import Cleartext.Command.Flag
import Cleartext.Command.Help
import Cleartext.Command.Program
import Cleartext.Command.Runs
import Cleartext.Command.Table
import Cleartext.Decimal.Binary
import Cleartext.Decimal.Numeral
import Cleartext.Decimal.Rounding
import Cleartext.Decimal.Shortest
import Cleartext.Descriptor
import Cleartext.Diff.Alignment
import Cleartext.Diff.Unified
import Cleartext.Error
import Cleartext.Host.Disk
import Cleartext.Host.Files
import Cleartext.Host.Path
import Cleartext.Isolation.Identity
import Cleartext.Isolation.Lift
import Cleartext.Isolation.Neutralize
import Cleartext.Isolation.Note
import Cleartext.Isolation.Workbench
import Cleartext.Libraries
import Cleartext.Machine.Arithmetic
import Cleartext.Machine.Call
import Cleartext.Machine.Datum
import Cleartext.Machine.Emulation
import Cleartext.Machine.Frame
import Cleartext.Machine.Hierarchy
import Cleartext.Machine.Library
import Cleartext.Machine.Library.Basic
import Cleartext.Machine.Library.Builders
import Cleartext.Machine.Library.Identity
import Cleartext.Machine.Library.Maps
import Cleartext.Machine.Library.Numbers
import Cleartext.Machine.Library.Objects
import Cleartext.Machine.Library.Strings
import Cleartext.Machine.Stack
import Cleartext.Machine.Step
import Cleartext.Machine.Value
import Cleartext.Machine.World
import Cleartext.Main
import Cleartext.Pattern.Decryption
import Cleartext.Pattern.Scan
import Cleartext.Pattern.Template
import Cleartext.Proofs.Reading
import Cleartext.Reader
import Cleartext.Replay.Conversion
import Cleartext.Replay.SavedCall
import Cleartext.Run.Job
import Cleartext.Run.Log
import Cleartext.Run.Session
import Cleartext.Run.Stats
import Cleartext.Settings.Duration
import Cleartext.Settings.Example
import Cleartext.Settings.Schema
import Cleartext.Settings.Basic
import Cleartext.Settings.Sources
import Cleartext.Text.Amount
import Cleartext.Text.ByteCharset
import Cleartext.Text.Charset
import Cleartext.Text.Hexadecimal
import Cleartext.Text.Json
import Cleartext.Text.ModifiedUtf8
import Cleartext.Text.Printable
import Cleartext.Text.Quoted
import Cleartext.Text.Style
import Cleartext.Text.Url
import Cleartext.Text.Utf16
import Cleartext.Yaml.Lexer
import Cleartext.Yaml.Node
import Cleartext.Yaml.Scalar
import Cleartext.Yaml.Token
import Cleartext.Yaml.Value
import Cleartext.Yaml.Writer
import Cleartext.Proofs.Class.Format
import Cleartext.Proofs.Class.RoundTrip
import Cleartext.Proofs.Code.Spelling
import Cleartext.Proofs.Code.Commit
import Cleartext.Proofs.Code.Assembly
import Cleartext.Proofs.Machine.Answers
import Cleartext.Proofs.Machine.Execution
import Cleartext.Proofs.Class.Meaning
import Cleartext.Proofs.Class.Compaction
import Cleartext.Proofs.Class.Twins
import Cleartext.Proofs.Class.Sites
import Cleartext.Proofs.Class.Renumbering
import Cleartext.Proofs.Class.Shrinking
import Cleartext.Proofs.Class.Adding
import Cleartext.Proofs.Class.Session
import Cleartext.Proofs.Class.References
import Cleartext.Proofs.Class.Rereading
import Cleartext.Proofs.Class.Marking
import Cleartext.Proofs.Class.Keys
import Cleartext.Proofs.Class.Minimal
import Cleartext.Proofs.Class.KeyEquality
import Cleartext.Proofs.Class.Reshrinking
import Cleartext.Proofs.Class.ShrinkingInPlace
import Cleartext.Proofs.Code.Placement
import Cleartext.Proofs.Code.StackMaps
import Cleartext.Proofs.Code.Relocation
import Cleartext.Proofs.Code.MovedFrames
import Cleartext.Proofs.Code.Transaction
import Cleartext.Proofs.Pattern.Operands
import Cleartext.Proofs.Pattern.Decryption
import Cleartext.Proofs.Run.Rewriting
import Cleartext.Proofs.Run.Classes
import Cleartext.Proofs.Archive.Entries
import Cleartext.Proofs.Run.Session
import Cleartext.Proofs.Run.Writing
import Cleartext.Proofs.Machine.Families
import Cleartext.Proofs.Machine.Inquiries
import Cleartext.Proofs.Isolation.Windows
import Cleartext.Proofs.Isolation.Observing
import Cleartext.Proofs.Isolation.Capturing
import Cleartext.Proofs.Isolation.Clearing
import Cleartext.Proofs.Isolation.Templates
import Cleartext.Proofs.Isolation.Neutralizing
import Cleartext.Proofs.Isolation.Settling
import Cleartext.Proofs.Twin.Calls
import Cleartext.Proofs.Twin.Steps
import Cleartext.Proofs.Text.Utf16
import Cleartext.Proofs.Text.Descriptors
import Cleartext.Proofs.Class.Growing
import Cleartext.Proofs.Class.Requests
import Cleartext.Proofs.Pattern.Matching
import Cleartext.Proofs.Pattern.Scanning
import Cleartext.Proofs.Machine.Invocation
import Cleartext.Proofs.Machine.Budget
import Cleartext.Proofs.Machine.Blame
import Cleartext.Proofs.Twin.Runs
import Cleartext.Proofs.Twin.Loading
import Cleartext.Proofs.Class.Words
import Cleartext.Proofs.Isolation.Reaching
import Cleartext.Proofs.Isolation.Copying
import Cleartext.Proofs.Isolation.Lifting
import Cleartext.Proofs.Isolation.Keeping
import Cleartext.Proofs.Archive.Screening
import Cleartext.Proofs.Quiet.Steps
import Cleartext.Proofs.Quiet.Identity
import Cleartext.Proofs.Quiet.Limits
import Cleartext.Proofs.Memory.Stores
import Cleartext.Proofs.Memory.Fields
import Cleartext.Proofs.Memory.Sparing
import Cleartext.Proofs.Memory.Effects
import Cleartext.Proofs.Memory.Keeping
import Cleartext.Proofs.Memory.Requests
import Cleartext.Proofs.Memory.Sharing
import Cleartext.Proofs.Maps.Answers
import Cleartext.Proofs.Machine.Slots
import Cleartext.Proofs.Code.Barriers
import Cleartext.Proofs.Run.Remaining
import Cleartext.Proofs.Run.Refusing
import Cleartext.Proofs.Run.Repeating
import Cleartext.Proofs.Run.Recording
import Cleartext.Proofs.Run.Caching
import Cleartext.Proofs.Class.KeyEquality
import Cleartext.Proofs.Text.Utf8
import Cleartext.Proofs.Replay.Documents
import Cleartext.Proofs.Replay.Replaying
import Cleartext.Proofs.Class.Walks
import Cleartext.Proofs.Code.StackMapWalks
import Cleartext.Proofs.Machine.Reversal
