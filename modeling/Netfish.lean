import Netfish.Buffer.Growth
import Netfish.Buffer.Room
import Netfish.Buffer.ScatterRead
import Netfish.Buffer.Shrink
import Netfish.Loop.Calling
import Netfish.Loop.Functors
import Netfish.Loop.QuitRequest
import Netfish.Loop.Wakeup
import Netfish.Net.CallbackTrace
import Netfish.Net.CloseOnce
import Netfish.Net.Disconnect
import Netfish.Net.Dispatch
import Netfish.Net.HalfClose
import Netfish.Net.Owners
import Netfish.Net.Reconnect
import Netfish.Net.RoundRobin
import Netfish.Net.ServerMap
import Netfish.Net.Sockets
import Netfish.Net.StartStop
import Netfish.Net.Teardown
import Netfish.Net.Watched
import Netfish.Net.WriteComplete
import Netfish.Sync.Holder
import Netfish.Timer.AddTimer
import Netfish.Timer.Armed
import Netfish.Net.BufferedConnection
import Netfish.Kit.Repeats
import Netfish.Net.Link
import Netfish.Net.PingPong
import Netfish.Net.PingPongRuns
import Netfish.Net.Chargen
import Netfish.Kit.Pace
import Netfish.Timer.Rate
import Netfish.Net.OrderlyLoops
import Netfish.Net.ServedConnection
import Netfish.Net.ServedParts
import Netfish.Net.ServedRuns
import Netfish.Kit.Decimal
import Netfish.Kit.Periods
import Netfish.Kit.Tickets
import Netfish.Net.Backoff
import Netfish.Net.InetAddress
import Netfish.Sync.Thread
import Netfish.Sync.ThreadSum
import Netfish.Timer.Timestamp
import Netfish.Kit.Attendance
import Netfish.Kit.Sections
import Netfish.Loop.QueueLock
import Netfish.Net.ClientReports
import Netfish.Net.PingPongClients
