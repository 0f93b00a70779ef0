import Cuttlefish.Epoll.Pool
import Cuttlefish.Cvd.Server
import Cuttlefish.Cvd.Ownership
import Cuttlefish.Cvd.Invariant
import Cuttlefish.Cvd.Effects
import Cuttlefish.Cvd.Reachable
import Cuttlefish.Cvd.Frame
import Cuttlefish.Cvd.Connections
import Cuttlefish.Cvd.Lifecycle
import Cuttlefish.Cvd.Listener
import Cuttlefish.Cvd.Shutdown
import Cuttlefish.Cvd.Interrupts
import Cuttlefish.Cvd.Routing
import Cuttlefish.Cvd.Requests
import Cuttlefish.Cvd.Progress
import Cuttlefish.Cvd.Termination
import Cuttlefish.Cvd.Sequential
import Cuttlefish.Libandroid.ABuffer
