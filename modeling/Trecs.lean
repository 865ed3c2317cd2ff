import Trecs.Lib.Run
import Trecs.Lib.Machine
import Trecs.Lib.Timer
import Trecs.Lib.TimerChain
import Trecs.Lib.Table
import Trecs.Lib.Keyed
import Trecs.Lib.Lease
import Trecs.Lib.Unwinding
import Trecs.Lib.Unicode
import Trecs.Lib.Hex
import Trecs.Lib.Bufio
import Trecs.Lib.Consumed
import Trecs.Lib.Parser
import Trecs.Lib.Cursor
import Trecs.Lib.TextLines
import Trecs.Lib.Outcome
import Trecs.Lib.HostPort
import Trecs.Lib.Netip
import Trecs.Proto.Sip
import Trecs.Proto.Unmarshal
import Trecs.Proto.Address
import Trecs.Proto.Marshal
import Trecs.Proto.Lines
import Trecs.Proto.RoundTrip
import Trecs.Proto.Accepted
import Trecs.Proto.Stability
import Trecs.Proto.Span
import Trecs.Proto.Framing
import Trecs.Sip.Transaction
import Trecs.Sip.SingleFinal
import Trecs.Sip.Uac
import Trecs.Sip.TimerB
import Trecs.Sip.Manager
import Trecs.Sip.Matching
import Trecs.Sip.OnceOnly
import Trecs.Sip.Progress
import Trecs.Sip.Owners
import Trecs.Sip.Stream
import Trecs.Sip.Expiry
import Trecs.Sip.Delivery
import Trecs.Sip.Ack
import Trecs.Sip.Reliable
import Trecs.Sip.PrackSilence
import Trecs.Sip.Outstanding
import Trecs.Sip.Digest
import Trecs.Sip.Nonce
import Trecs.Sip.Auth
import Trecs.Sip.Replay
import Trecs.Sip.AuthSound
import Trecs.Sip.NonceUse
import Trecs.Sip.Contact
import Trecs.Sip.Registrar
import Trecs.Sip.BindingStore
import Trecs.Sip.AuthShare
import Trecs.Sip.Parameters
import Trecs.Sip.Subscribers
import Trecs.Sip.Lifetime
import Trecs.Sip.Lookup
import Trecs.Sip.Flows
import Trecs.Sip.Acceptor
import Trecs.Sip.Target
import Trecs.Lib.Tally
import Trecs.Lib.Wire
import Trecs.Proto.Rtp
import Trecs.Proto.RtpRoundTrip
import Trecs.Proto.Rtcp
import Trecs.Proto.RtcpRoundTrip
import Trecs.Lib.Trim
import Trecs.Lib.Quote
import Trecs.Lib.Sections
import Trecs.Proto.Sdp
import Trecs.Proto.SdpText
import Trecs.Proto.SdpSize
import Trecs.Proto.SdpValues
import Trecs.Proto.SdpSections
import Trecs.Proto.SdpRoundTrip
import Trecs.Proto.SdpStability
import Trecs.Media.Sdp
import Trecs.Media.Bridge
import Trecs.Media.Session
import Trecs.Trunk.Manager
import Trecs.Trunk.Registration
import Trecs.Trunk.Refresh
import Trecs.Trunk.Agreement
import Trecs.Trunk.Config
import Trecs.Trunk.Trusted
import Trecs.Trunk.Route
import Trecs.Sip.Channels
import Trecs.B2bua.Call
import Trecs.Lib.Indexed
import Trecs.B2bua.StoreIndex
import Trecs.B2bua.ResponseLoop
import Trecs.B2bua.Invite
import Trecs.B2bua.Leg
import Trecs.B2bua.OneFinal
import Trecs.B2bua.TwoLegs
import Trecs.B2bua.SetupEnds
import Trecs.B2bua.Exchange
import Trecs.B2bua.Channels
import Trecs.B2bua.Capacity
import Trecs.B2bua.Steering
import Trecs.B2bua.Dispatch
import Trecs.B2bua.InDialog
import Trecs.B2bua.ReInvite
import Trecs.B2bua.Hangup
import Trecs.B2bua.Numbering
import Trecs.B2bua.LateTimer
import Trecs.Lib.Slice
import Trecs.Proto.RtpDecode
