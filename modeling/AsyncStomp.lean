import AsyncStomp.PartialInput.Reads
import AsyncStomp.Decimal
import AsyncStomp.Frame.Basic
import AsyncStomp.Frame.Scan
import AsyncStomp.Frame.Convert
import AsyncStomp.Frame.Heartbeat
import AsyncStomp.Frame.Present
import AsyncStomp.Frame.Utf8
import AsyncStomp.Frame.Grammar
import AsyncStomp.Frame.Lines
import AsyncStomp.Frame.Classify
import AsyncStomp.Frame.Length
import AsyncStomp.Frame.Serialize
import AsyncStomp.Frame.ToFrame
import AsyncStomp.Codec.Basic
import AsyncStomp.Codec.Input
import AsyncStomp.Codec.Bound
import AsyncStomp.Codec.Output
import AsyncStomp.Codec.Received
import AsyncStomp.Codec.Fields
import AsyncStomp.Codec.Connect
import AsyncStomp.Codec.Headers
import AsyncStomp.Codec.Views
import AsyncStomp.Codec.Reencode
import AsyncStomp.Codec.Arrival
import AsyncStomp.Tasks.Runs
import AsyncStomp.Tasks.Channel
import AsyncStomp.Tasks.Link
import AsyncStomp.Tasks.Progress
import AsyncStomp.Client.Connector
import AsyncStomp.Client.Requested
import AsyncStomp.Client.Disconnect
import AsyncStomp.Client.Pump.Basic
import AsyncStomp.Client.Pump.Moves
import AsyncStomp.Client.Pump.Inv
import AsyncStomp.Client.Pump.Sound
import AsyncStomp.Client.Pump.Caller
import AsyncStomp.Client.Pump.Close
import AsyncStomp.Client.Pump.Timed
import AsyncStomp.Client.Supervise.Basic
import AsyncStomp.Client.Supervise.Sound
import AsyncStomp.Client.Handshake
import AsyncStomp.Client.Wire
import AsyncStomp.Client.Pump.Progress
import AsyncStomp.Client.Pump.KeepAlive
import AsyncStomp.Client.Supervise.Buffer
import AsyncStomp.Client.Supervise.Alarm
import AsyncStomp.Client.Receipt
import AsyncStomp.Client.Opening
import AsyncStomp.Client.Builder
