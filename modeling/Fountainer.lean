import Fountainer.Library.Run
import Fountainer.System.Requests
import Fountainer.System.Frames
import Fountainer.System.Handshake
import Fountainer.System.Stages
import Fountainer.System.Registry
import Fountainer.System.Lifecycle
import Fountainer.System.Newest
import Fountainer.System.Agreement
import Fountainer.System.Watchdog
import Fountainer.System.History
import Fountainer.System.DeviceLog
import Fountainer.System.Chart
import Fountainer.System.Backfill
import Fountainer.System.Tab
import Fountainer.System.Page
import Fountainer.System.Receive
import Fountainer.System.Ghost
import Fountainer.System.Downloads
import Fountainer.Library.Reading
import Fountainer.Python.Lemmas.Canonical
import Fountainer.Proto.Binding
import Fountainer.App.Firmware
import Fountainer.App.Ingest
import Fountainer.System.Draining
import Fountainer.System.Recovery
import Fountainer.System.LogSession
import Fountainer.Proto.Verifiable
import Fountainer.System.FailClosed
import Fountainer.System.ChartOrder
import Fountainer.App.Writes
import Fountainer.System.Buffers
import Fountainer.App.FirmwareHttp
import Fountainer.Python.Whole
import Fountainer.App.Admin
import Fountainer.System.Admin
import Fountainer.App.Sessions
import Fountainer.System.Sessions
import Fountainer.Python.Lemmas.Url
import Fountainer.Peer.Firmware
import Fountainer.Peer.Authority
import Fountainer.Peer.Delivery
import Fountainer.System.Isolation
import Fountainer.Peer.Site
import Fountainer.Peer.Versions
