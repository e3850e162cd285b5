import RadarHost.Acquisition.Config
import RadarHost.Acquisition.Producer
import RadarHost.Acquisition.Stats
import RadarHost.Bench.Basic
import RadarHost.Bench.Board
import RadarHost.Bench.Course
import RadarHost.Bench.Script
import RadarHost.Buffer.Basic
import RadarHost.Buffer.Cursor
import RadarHost.Bytes
import RadarHost.Cli.Console
import RadarHost.Cli.Grammar
import RadarHost.Cli.Invocation
import RadarHost.Cli.Run
import RadarHost.Digits
import RadarHost.Discovery.Config
import RadarHost.Discovery.Parallel
import RadarHost.Discovery.Probe
import RadarHost.Frame.Basic
import RadarHost.Frame.Layout
import RadarHost.Frame.Samples
import RadarHost.Json.Basic
import RadarHost.Json.Domain
import RadarHost.Json.Parser
import RadarHost.Json.Record
import RadarHost.Link.Await
import RadarHost.Link.Dialogue
import RadarHost.Link.Error
import RadarHost.Link.Event
import RadarHost.Link.Session
import RadarHost.Main
import RadarHost.Matrix.PlacedSet
import RadarHost.Matrix.Transpose
import RadarHost.Packet.Basic
import RadarHost.Packet.BoardInfo
import RadarHost.Packet.Checksum
import RadarHost.Packet.Command
import RadarHost.Packet.Error
import RadarHost.Packet.FrameHeader
import RadarHost.Packet.Reader
import RadarHost.Packet.Reply
import RadarHost.Packet.Request
import RadarHost.Packet.Stream
import RadarHost.Proofs.Acquisition.Accounts
import RadarHost.Proofs.Acquisition.Balance
import RadarHost.Proofs.Acquisition.Doings
import RadarHost.Proofs.Acquisition.Evictions
import RadarHost.Proofs.Acquisition.Failing
import RadarHost.Proofs.Acquisition.Progress
import RadarHost.Proofs.Acquisition.Sharing
import RadarHost.Proofs.Acquisition.Shutdown
import RadarHost.Proofs.Bench.Commands
import RadarHost.Proofs.Bench.Delivery
import RadarHost.Proofs.Bench.Frames
import RadarHost.Proofs.Bench.Lines
import RadarHost.Proofs.Bench.Lockstep
import RadarHost.Proofs.Bench.Reply
import RadarHost.Proofs.Bench.Sessions
import RadarHost.Proofs.Bench.Writes
import RadarHost.Proofs.Buffer.Reading
import RadarHost.Proofs.Checksum.Bits
import RadarHost.Proofs.Checksum.Detection
import RadarHost.Proofs.Checksum.Residue
import RadarHost.Proofs.Discovery.Agreement
import RadarHost.Proofs.Discovery.Attempts
import RadarHost.Proofs.Discovery.Custody
import RadarHost.Proofs.Discovery.Decision
import RadarHost.Proofs.Discovery.Policy
import RadarHost.Proofs.Discovery.Rates
import RadarHost.Proofs.Frame.Blocks
import RadarHost.Proofs.Frame.Decoding
import RadarHost.Proofs.Frame.Samples
import RadarHost.Proofs.Link.Calls
import RadarHost.Proofs.Link.Course
import RadarHost.Proofs.Link.Custody
import RadarHost.Proofs.Link.Damage
import RadarHost.Proofs.Link.Deadline
import RadarHost.Proofs.Link.Delivery
import RadarHost.Proofs.Link.Frames
import RadarHost.Proofs.Link.Hearing
import RadarHost.Proofs.Link.Holding
import RadarHost.Proofs.Link.Prompt
import RadarHost.Proofs.Link.Scripted
import RadarHost.Proofs.Link.Timing
import RadarHost.Proofs.Matrix.Cycles
import RadarHost.Proofs.Matrix.Transposition
import RadarHost.Proofs.Matrix.Visits
import RadarHost.Proofs.Packet.Access
import RadarHost.Proofs.Packet.Discards
import RadarHost.Proofs.Packet.Flight
import RadarHost.Proofs.Packet.Framing
import RadarHost.Proofs.Packet.Grammar
import RadarHost.Proofs.Packet.Intact
import RadarHost.Proofs.Packet.Looking
import RadarHost.Proofs.Packet.Parsing
import RadarHost.Proofs.Packet.Reassembly
import RadarHost.Proofs.Packet.Resync
import RadarHost.Proofs.Packet.RoundTrip
import RadarHost.Proofs.Packet.Taking
import RadarHost.Proofs.Packet.Wanted
import RadarHost.Proofs.Queue.Leaving
import RadarHost.Proofs.Queue.Ledger
import RadarHost.Proofs.Queue.Release
import RadarHost.Proofs.Queue.Steps
import RadarHost.Proofs.Queue.Wakeups
import RadarHost.Proofs.Word.Masks
import RadarHost.Proofs.Word.Swaps
import RadarHost.Queue.Basic
import RadarHost.Queue.Consumers
import RadarHost.Time
import RadarHost.Word.Mask
