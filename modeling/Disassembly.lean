import Disassembly.Text.Blank
import Disassembly.Decimal.Shortest
import Disassembly.Native.Script
import Disassembly.Sample.Engine
import Disassembly.Session.Desk
import Disassembly.Library.Host
import Disassembly.Main
import Disassembly.Proofs.Detail.Structure
import Disassembly.Proofs.Detail.Headers
import Disassembly.Proofs.Detail.Placement
import Disassembly.Proofs.Detail.Reading
import Disassembly.Proofs.Detail.Frame
import Disassembly.Proofs.Detail.Writing
import Disassembly.Proofs.Detail.RoundTrip
import Disassembly.Proofs.Detail.LiveBytes
import Disassembly.Proofs.Detail.Bounds
import Disassembly.Proofs.Session.Replay
import Disassembly.Proofs.Session.Dealings
import Disassembly.Proofs.Session.Course
import Disassembly.Proofs.Session.Lifecycle
import Disassembly.Proofs.Session.Arrays
import Disassembly.Proofs.Session.Statuses
import Disassembly.Proofs.Session.Journal
import Disassembly.Proofs.Session.Configuration
import Disassembly.Proofs.Mode.Flags
import Disassembly.Proofs.Session.Gates
import Disassembly.Proofs.Session.Reporting
import Disassembly.Proofs.Session.Inquiries
import Disassembly.Proofs.Session.Operands
import Disassembly.Proofs.Session.Veils
import Disassembly.Proofs.Session.Likeness
import Disassembly.Proofs.Session.Emissions
import Disassembly.Proofs.Session.Gating
import Disassembly.Proofs.Session.Shortcuts
import Disassembly.Proofs.Session.Snapshots
import Disassembly.Proofs.Session.Conversion
import Disassembly.Proofs.Session.Indistinct
import Disassembly.Proofs.Session.NativeText
import Disassembly.Proofs.Session.Descriptor
import Disassembly.Proofs.Library.Resolution
import Disassembly.Proofs.Text.RoundTrip
import Disassembly.Proofs.Text.Pieces
import Disassembly.Proofs.Text.Digits
import Disassembly.Proofs.Text.Positional
import Disassembly.Proofs.Text.Marks
import Disassembly.Proofs.Sample.Table
import Disassembly.Proofs.Sample.Recognition
import Disassembly.Proofs.Sample.Mirror
import Disassembly.Proofs.Sample.Books
import Disassembly.Proofs.Sample.Resumption
import Disassembly.Proofs.Sample.Grammar
import Disassembly.Proofs.CommandLine.Stages
import Disassembly.Proofs.CommandLine.Printing
import Disassembly.Proofs.CommandLine.Attendance
import Disassembly.Proofs.CommandLine.Insertion
import Disassembly.Proofs.CommandLine.Verbosity
import Disassembly.Proofs.CommandLine.Spelling
import Disassembly.Proofs.CommandLine.Tokens
import Disassembly.Proofs.CommandLine.Addresses
import Disassembly.Proofs.CommandLine.ModeFlags
import Disassembly.Proofs.CommandLine.ReadBack
