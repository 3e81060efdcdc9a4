import Loft.Data.Checked
import Loft.Data.Chunks
import Loft.Data.Inbox
import Loft.Data.Mailboxes
import Loft.Data.Octets
import Loft.Data.Scanner
import Loft.Data.Table
import Loft.Data.Transition
import Loft.Data.Uri
import Loft.Data.Utf8
import Loft.Data.Watched
import Loft.Coap.Udp
import Loft.Coap.Block
import Loft.Coap.BlockCodec
import Loft.Coap.ContentRange
import Loft.Coap.Checked
import Loft.Coap.CheckedFraming
import Loft.Quota
import Loft.Quota.Accounting
import Loft.Quota.Drawn
import Loft.Listen
import Loft.Time
import Loft.Psk
import Loft.Psk.Answers
import Loft.Psk.Vouched
import Loft.Psk.Ageing
import Loft.Psk.Source
import Loft.Psk.Outage
import Loft.Upstream
import Loft.TlsTcp
import Loft.Handler
import Loft.Handler.Routing
import Loft.Handler.Reassembly
import Loft.Handler.Outcomes
import Loft.Handler.Bounds
import Loft.Handler.Malformed
import Loft.Handler.Isolation
import Loft.Handler.Exchange
import Loft.Handler.Download
import Loft.Handler.Fetch
import Loft.Handler.Firmware
import Loft.Handler.Release
import Loft.Handler.LastBlock
import Loft.Handler.Ceiling
import Loft.Handler.Placement
import Loft.Handler.Checked
import Loft.NoPanic
import Loft.TlsTcp.Deadline
import Loft.TlsTcp.Connection
import Loft.TlsTcp.Conversation
import Loft.TlsTcp.Peer
import Loft.TlsTcp.Listener
import Loft.TlsCommon
import Loft.TlsCommon.Authentication
import Loft.DtlsCommon
import Loft.DtlsCommon.Retransmission
import Loft.DtlsCommon.Discipline
import Loft.DtlsCommon.Upload
import Loft.Dtls
import Loft.Dtls.Eviction
import Loft.Dtls.Backing
import Loft.Dtls.Delivery
import Loft.Dtls.DgramIo
import Loft.Dtls.Deadline
import Loft.Dtls.Listen
import Loft.Dtls.Cookie
import Loft.MbedtlsShim
import Loft.MbedtlsShim.Timer
import Loft.DtlsMbed
import Loft.DtlsMbed.Channel
import Loft.DtlsMbed.Deadline
import Loft.DtlsMbed.Steps
import Loft.DtlsMbed.Sessions
import Loft.DtlsMbed.Cookie
import Loft.DtlsMbed.Maps
import Loft.DtlsMbed.Demux
import Loft.DtlsMbed.Routing
import Loft.DtlsMbed.Closure
import Loft.DtlsMbed.Migration
import Loft.DtlsMbed.Backing
import Loft.DtlsMbed.Delivery
import Loft.Config
import Loft.Main
