import ConnectNcpHost.Lib.Runs
import ConnectNcpHost.Lib.Chunks
import ConnectNcpHost.Stack.ByteUtilities
import ConnectNcpHost.Ota.Transition
import ConnectNcpHost.Ota.Frames
import ConnectNcpHost.Ota.SegmentBounds
import ConnectNcpHost.Ota.Processes
import ConnectNcpHost.Ota.History
import ConnectNcpHost.Ota.Timer
import ConnectNcpHost.Ota.Interleaved
import ConnectNcpHost.Ota.Network
import ConnectNcpHost.Ota.Retransmission
import ConnectNcpHost.Ota.Delivery
import ConnectNcpHost.Csp.Codec
import ConnectNcpHost.Csp.RoundTrip
import ConnectNcpHost.Csp.LengthMode
import ConnectNcpHost.HostCommon.CpcHost
import ConnectNcpHost.HostCommon.ResponseIntegrity
import ConnectNcpHost.Csp.FrameBounds
import ConnectNcpHost.Csp.LengthPrefixes
import ConnectNcpHost.Ota.Completion
import ConnectNcpHost.Ota.Retries
import ConnectNcpHost.Lib.StopAndWait
import ConnectNcpHost.Ota.StopAndWait
import ConnectNcpHost.Ota.SentCallbacks
import ConnectNcpHost.Ota.EventLoops
import ConnectNcpHost.Lib.Pipes
import ConnectNcpHost.HostCommon.CallbackQueue
import ConnectNcpHost.HostCommon.Interlocking
import ConnectNcpHost.HostCommon.Pairing
import ConnectNcpHost.HostCommon.ThreadModels
import ConnectNcpHost.Csp.EncodedSize
import ConnectNcpHost.Csp.Outputs
import ConnectNcpHost.HostCommon.QueueFraming
import ConnectNcpHost.Ota.AwaitedAnswers
import ConnectNcpHost.Ota.ShortResponses
import ConnectNcpHost.Ota.EarlyResponses
import ConnectNcpHost.Ota.OwnFrames
import ConnectNcpHost.Csp.CommandLength
import ConnectNcpHost.Lib.Bits
import ConnectNcpHost.Stack.BitPrefixes
import ConnectNcpHost.Lib.Terminated
import ConnectNcpHost.Log.StrBytes
import ConnectNcpHost.Stack.Strings
import ConnectNcpHost.Log.TraceBuffer
import ConnectNcpHost.Ota.Parameters
import ConnectNcpHost.Ota.BootloadDelay
import ConnectNcpHost.Lib.Streaks
import ConnectNcpHost.Ota.StackErrors
import ConnectNcpHost.Ota.Delays
import ConnectNcpHost.Csp.Callbacks
import ConnectNcpHost.Csp.ApiCommands
import ConnectNcpHost.Csp.CallbackBounds
import ConnectNcpHost.HostCommon.CallbackPath
import ConnectNcpHost.HostCommon.Host
import ConnectNcpHost.HostCommon.RemoteCalls
import ConnectNcpHost.App.CommandRuns
import ConnectNcpHost.App.FileDelivery
import ConnectNcpHost.App.SensorData
import ConnectNcpHost.App.CommandEnds
import ConnectNcpHost.App.Screen
import ConnectNcpHost.App.ScreenProgress
import ConnectNcpHost.Ota.TransferProgress
