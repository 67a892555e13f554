import FramedTasks.Bytes
import FramedTasks.CommandLine.Dispatch
import FramedTasks.CommandLine.Exit
import FramedTasks.CommandLine.Grammar
import FramedTasks.CommandLine.Options
import FramedTasks.CommandLine.Outcome
import FramedTasks.CommandLine.Program
import FramedTasks.CommandLine.Report
import FramedTasks.CommandLine.Value
import FramedTasks.CommandLine.Work
import FramedTasks.Control.Descriptor
import FramedTasks.Control.Flag
import FramedTasks.Control.Inbox
import FramedTasks.Control.LineSource
import FramedTasks.Control.Listener
import FramedTasks.Control.Poll
import FramedTasks.Control.Race
import FramedTasks.Directory.Basic
import FramedTasks.Directory.Change
import FramedTasks.Dispatcher
import FramedTasks.Frame.Basic
import FramedTasks.Frame.Buffered
import FramedTasks.Frame.Channel
import FramedTasks.Frame.Duplex
import FramedTasks.Frame.Queue
import FramedTasks.Frame.Reader
import FramedTasks.Frame.Run
import FramedTasks.Frame.Writer
import FramedTasks.Json.Basic
import FramedTasks.Json.Fault
import FramedTasks.Json.Reader
import FramedTasks.Json.Record
import FramedTasks.Json.Token
import FramedTasks.Keyed
import FramedTasks.Main
import FramedTasks.MessagePack.Item
import FramedTasks.MessagePack.Marker
import FramedTasks.MessagePack.Record
import FramedTasks.Number.Binary64
import FramedTasks.Number.Shortest
import FramedTasks.Proofs.Frame.Delivery
import FramedTasks.Proofs.Frame.Receiving
import FramedTasks.Proofs.Frame.Sending
import FramedTasks.Proofs.Frame.Wire
import FramedTasks.Proofs.Json.Record
import FramedTasks.Proofs.Json.Token
import FramedTasks.Proofs.MessagePack.Item
import FramedTasks.Proofs.MessagePack.Record
import FramedTasks.Proofs.Record.Draft
import FramedTasks.Proofs.Record.RoundTrip
import FramedTasks.Proofs.Record.Values
import FramedTasks.Proofs.Stream.Brings
import FramedTasks.Proofs.Stream.Reads
import FramedTasks.Proofs.Text.Utf8
import FramedTasks.Proofs.Worker.Cycle
import FramedTasks.Proofs.Worker.DoWork
import FramedTasks.Proofs.Worker.Requests
import FramedTasks.Record.Basic
import FramedTasks.Record.Codec
import FramedTasks.Record.Fault
import FramedTasks.Record.Schema
import FramedTasks.Socket.Connection
import FramedTasks.Socket.Error
import FramedTasks.Socket.Handles
import FramedTasks.Socket.Hosting
import FramedTasks.Socket.PipeName
import FramedTasks.Stream.Fault
import FramedTasks.Stream.Sink
import FramedTasks.Stream.Source
import FramedTasks.Text.Blank
import FramedTasks.Text.Decimal
import FramedTasks.Text.Lines
import FramedTasks.Text.Quoted
import FramedTasks.Text.Ranges
import FramedTasks.Text.Table
import FramedTasks.Text.Unprintable
import FramedTasks.Text.Utf8
import FramedTasks.Text.Width
import FramedTasks.Timed.Lines
import FramedTasks.Timed.Listener
import FramedTasks.Timed.Timeline
import FramedTasks.Total
import FramedTasks.Worker.Basic
import FramedTasks.Worker.Blocking
import FramedTasks.Worker.Config
import FramedTasks.Worker.Context
import FramedTasks.Worker.Error
import FramedTasks.Worker.Processor
import FramedTasks.Worker.Stage
import FramedTasks.Worker.Timed
import FramedTasks.Proofs.Frame.Buffered
import FramedTasks.Proofs.Worker.Course
import FramedTasks.Proofs.Worker.Blocking
import FramedTasks.Proofs.Timed.Waiting
import FramedTasks.Proofs.Timed.Listener
import FramedTasks.Proofs.Worker.Timed
import FramedTasks.Proofs.Worker.Agreement
import FramedTasks.Proofs.Dispatcher
import FramedTasks.Proofs.Json.Grammar
import FramedTasks.Proofs.Json.Spelled
import FramedTasks.Proofs.Json.Members
import FramedTasks.Proofs.MessagePack.Grammar
import FramedTasks.Proofs.MessagePack.Spelled
import FramedTasks.Proofs.MessagePack.Members
import FramedTasks.Proofs.Record.Decoding
import FramedTasks.Proofs.Json.Compact
import FramedTasks.Proofs.Worker.ReadAhead
import FramedTasks.Proofs.Text.Lines
import FramedTasks.Proofs.Control.Sources
import FramedTasks.Proofs.Control.Agreement
import FramedTasks.Proofs.Worker.Lifecycle
import FramedTasks.Proofs.Frame.Joined
import FramedTasks.Proofs.Frame.InOrder
import FramedTasks.Proofs.Directory.Paths
import FramedTasks.Proofs.Frame.ExactReads
import FramedTasks.Proofs.Frame.SendCalls
import FramedTasks.Proofs.Directory.Changes
import FramedTasks.Proofs.Socket.Placing
import FramedTasks.Proofs.Socket.Ownership
import FramedTasks.Proofs.Socket.Cleanup
import FramedTasks.Proofs.Frame.Duplex
import FramedTasks.Proofs.Record.Lengths
import FramedTasks.Proofs.CommandLine.Conversation
import FramedTasks.Proofs.CommandLine.Report
import FramedTasks.Proofs.CommandLine.Session
import FramedTasks.Proofs.CommandLine.Exchange
import FramedTasks.Proofs.Control.Handover
import FramedTasks.Proofs.Record.HeaderKeys
import FramedTasks.Proofs.Record.Scalars
import FramedTasks.Proofs.Number.Finite
import FramedTasks.Proofs.Record.Steady
import FramedTasks.Proofs.Record.Placed
import FramedTasks.Proofs.MessagePack.Document
import FramedTasks.Proofs.MessagePack.Dropped
import FramedTasks.Proofs.MessagePack.Determined
import FramedTasks.Proofs.MessagePack.Accepted
import FramedTasks.Proofs.MessagePack.Payload
import FramedTasks.Proofs.Json.Document
import FramedTasks.Proofs.Json.Numbers
import FramedTasks.Proofs.Json.Determined
import FramedTasks.Proofs.Json.Accepted
import FramedTasks.Proofs.Json.Payload
import FramedTasks.Proofs.Record.Trailing
import FramedTasks.Proofs.Record.DroppedHeaders
import FramedTasks.Proofs.Frame.Queue
import FramedTasks.Proofs.Text.Blank
import FramedTasks.Proofs.Text.Decimal
import FramedTasks.Proofs.Record.TimeLimit
import FramedTasks.Proofs.Control.Race
import FramedTasks.Proofs.Worker.Trail
import FramedTasks.Proofs.Worker.Stages
import FramedTasks.Proofs.CommandLine.Duration
import FramedTasks.Proofs.CommandLine.HeaderArgument
import FramedTasks.Proofs.CommandLine.Requests
