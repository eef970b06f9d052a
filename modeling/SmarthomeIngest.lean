import SmarthomeIngest.Lib.Transition
import SmarthomeIngest.Lib.Simulation
import SmarthomeIngest.Lib.Stutter
import SmarthomeIngest.Lib.Seqlock
import SmarthomeIngest.Lib.Register
import SmarthomeIngest.Lib.Seqlock.Linearizable
import SmarthomeIngest.Lib.Bytes
import SmarthomeIngest.Lib.Io
import SmarthomeIngest.Lib.Scanner
import SmarthomeIngest.Lib.Scanner.Pieces
import SmarthomeIngest.Lib.Text
import SmarthomeIngest.Lib.Escape
import SmarthomeIngest.Lib.Decimal
import SmarthomeIngest.Lib.HashMap
import SmarthomeIngest.Wal.Types
import SmarthomeIngest.Wal.AtomicOffset
import SmarthomeIngest.Wal.Codec
import SmarthomeIngest.Wal.Bincode
import SmarthomeIngest.Wal.Segment
import SmarthomeIngest.Wal.SegmentName
import SmarthomeIngest.Wal.Recover
import SmarthomeIngest.Wal.Cursor
import SmarthomeIngest.Wal.Log
import SmarthomeIngest.Wal.Subscription
import SmarthomeIngest.Wal.Subscription.Rules
import SmarthomeIngest.Wal.Writer
import SmarthomeIngest.Wal.Writer.Rules
import SmarthomeIngest.Wal.Open
import SmarthomeIngest.Wal.Replay
import SmarthomeIngest.Wal.RecordRoundTrip
import SmarthomeIngest.Wal.Resume
import SmarthomeIngest.Wal.Writer.Layout
import SmarthomeIngest.Wal.Writer.Invariant
import SmarthomeIngest.Wal.Writer.OnTheWay
import SmarthomeIngest.Wal.Writer.First
import SmarthomeIngest.Wal.Writer.Acks
import SmarthomeIngest.Wal.Writer.Rejected
import SmarthomeIngest.Wal.Writer.Files
import SmarthomeIngest.Wal.Entries
import SmarthomeIngest.Wal.Writer.Logged
import SmarthomeIngest.Wal.Writer.Acked
import SmarthomeIngest.Wal.Restarts
import SmarthomeIngest.Wal.Live
import SmarthomeIngest.Wal.Tail
import SmarthomeIngest.Wal.Retry
import SmarthomeIngest.Wal.Commit
import SmarthomeIngest.Wal.Session
import SmarthomeIngest.Wal.Yield
import SmarthomeIngest.Wal.Progress
import SmarthomeIngest.Wal.Approach
import SmarthomeIngest.Wal.Start
import SmarthomeIngest.Wal.Wakeup
import SmarthomeIngest.Wal.Dropped
import SmarthomeIngest.Wal.DeadLetter
import SmarthomeIngest.Wal.Forwarder
import SmarthomeIngest.Wal.AtLeastOnce
import SmarthomeIngest.Wal.Forwarding
import SmarthomeIngest.Wal.Forwarding.Refines
import SmarthomeIngest.Wal.Forwarding.Drain
import SmarthomeIngest.Wal.Forwarding.Batches
import SmarthomeIngest.Wal.Lifetime
import SmarthomeIngest.Wal.Provenance
import SmarthomeIngest.Shutdown
import SmarthomeIngest.Dispatch
import SmarthomeIngest.Message.Json
import SmarthomeIngest.Message.Schema
import SmarthomeIngest.Message.Messages
import SmarthomeIngest.Message.Topic
import SmarthomeIngest.Message.TopicLanguage
import SmarthomeIngest.Message.DeviceId
import SmarthomeIngest.Message.Transform
import SmarthomeIngest.Message.Router
import SmarthomeIngest.Message.Transformed
import SmarthomeIngest.Message.RouteOrder
import SmarthomeIngest.Message.RealArith
import SmarthomeIngest.Message.HeatIndex
import SmarthomeIngest.Message.DewPoint
import SmarthomeIngest.Message.AirQuality
import SmarthomeIngest.Sink.Point
import SmarthomeIngest.Sink.Escape
import SmarthomeIngest.Sink.Influx
import SmarthomeIngest.Sink.LineReader
import SmarthomeIngest.Sink.RoundTrip
import SmarthomeIngest.Sink.Body
import SmarthomeIngest.Sink.LineSize
import SmarthomeIngest.Sink.Write
import SmarthomeIngest.Sink.Upload
import SmarthomeIngest.Sink.Retries
import SmarthomeIngest.Pipeline.DerivedFields
import SmarthomeIngest.Pipeline.Runner
import SmarthomeIngest.Pipeline.Stages
import SmarthomeIngest.Pipeline.Outcome
import SmarthomeIngest.Pipeline.RecordSize
import SmarthomeIngest.Pipeline.DeviceMatch
import SmarthomeIngest.Pipeline.SchemaAgreement
import SmarthomeIngest.Cache.State
import SmarthomeIngest.Cache.Concurrent
import SmarthomeIngest.Cache.Stream
import SmarthomeIngest.Source.Mqtt
import SmarthomeIngest.Source.Routing
import SmarthomeIngest.Ingestion
import SmarthomeIngest.Ingestion.Sourced
import SmarthomeIngest.Ingestion.Delivered
import SmarthomeIngest.Ingestion.Cached
