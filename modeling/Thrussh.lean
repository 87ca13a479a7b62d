import Thrussh.ChannelData
import Thrussh.Packets
import Thrussh.Rekey
import Thrussh.Select
import Thrussh.Server.Gate
import Thrussh.Output
import Thrussh.Client.Service
import Thrussh.Client.Authentic
import Thrussh.Eof
import Thrussh.Exclusive
import Thrussh.InOrder
import Thrussh.Window
import Thrussh.Link
import Thrussh.Reading
import Thrussh.Server.Questions
import Thrussh.Channels
import Thrussh.Requests
import Thrussh.Client.Serving
import Thrussh.Reports
import Thrussh.Identification
import Thrussh.PeerWindow
import Thrussh.Server.Inquiry
import Thrussh.Server.Verdicts
import Thrussh.Server.Known
import Thrussh.Client.Known
import Thrussh.Known
import Thrussh.Server.Course
import Thrussh.Server.Attempts
import Thrussh.Server.Binding
import Thrussh.Server.Table
import Thrussh.Replies
import Thrussh.Server.Replies
import Thrussh.Opening
import Thrussh.Provenance
import Thrussh.Server.Hashing
import Thrussh.Client.Hashing
import Thrussh.SessionId
import Thrussh.Server.Modes
import Thrussh.Progress
import Thrussh.Safety
import Thrussh.Server.Keys
import Thrussh.Server.Ending
import Thrussh.Client.Table
import Thrussh.Persistence
import Thrussh.Client.Confirmation
import Thrussh.Lib.Fails
import Thrussh.Robust
import Thrussh.Client.Robust
import Thrussh.Exchanging
import Thrussh.Server.Malformed
import Thrussh.Client.Malformed
import Thrussh.Malformed
import Thrussh.Metering
import Thrussh.Rearming
import Thrussh.Rearmed
import Thrussh.Limits
import Thrussh.Limited
import Thrussh.Directions
import Thrussh.Shutdown
import Thrussh.Server.Writable
import Thrussh.Client.Waiting
import Thrussh.Written
import Thrussh.Passes
import Thrussh.Client.SendData
import Thrussh.Client.Mirror
import Thrussh.Client.Tunnel
import Thrussh.Closing
import Thrussh.Server.Forwarding
import Thrussh.Lib.Chain
import Thrussh.KeyDerivation
import Thrussh.Flate
import Thrussh.Compressing
import Thrussh.Lib.Costs
import Thrussh.Delivery
import Thrussh.Signing
import Thrussh.Lib.Duplex
import Thrussh.Rounds
import Thrussh.Transcript
import Thrussh.Standing
import Thrussh.Hearing
import Thrussh.Client.Rounds
import Thrussh.Server.Rounds
import Thrussh.Turns
import Thrussh.Agreement
import Thrussh.Joint
import Thrussh.Connection
import Thrussh.Relay
import Thrussh.Server.Admission
import Thrussh.Server.Sources
import Thrussh.Admission
import Thrussh.Tracing
import Thrussh.InOrder
