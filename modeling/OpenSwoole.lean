import OpenSwoole.Core.Channel
import OpenSwoole.Core.HeapRuns
import OpenSwoole.Core.StringRuns
import OpenSwoole.Core.TimerAlarm
import OpenSwoole.Core.TimerFire
import OpenSwoole.Coroutine.ChannelRuns
import OpenSwoole.Coroutine.FileLockRuns
import OpenSwoole.Coroutine.RecvPacket
import OpenSwoole.Coroutine.Selector
import OpenSwoole.Coroutine.WaitEvent
import OpenSwoole.Memory.FixedPoolRuns
import OpenSwoole.Memory.GlobalMemory
import OpenSwoole.Memory.TableMap
import OpenSwoole.Network.DnsName
import OpenSwoole.Network.IOVector
import OpenSwoole.Network.Sendfile
import OpenSwoole.Os.AsyncThread
import OpenSwoole.Os.ProcessPoolReload
import OpenSwoole.Os.Wait
import OpenSwoole.Protocol.Http2ClientFrames
import OpenSwoole.Protocol.HttpChunked
import OpenSwoole.Protocol.Mqtt
import OpenSwoole.Protocol.RedisParse
import OpenSwoole.Protocol.UrlEncode
import OpenSwoole.Protocol.WebSocketControl
import OpenSwoole.Server.BaseClose
import OpenSwoole.Server.BaseFinish
import OpenSwoole.Server.BaseProxy
import OpenSwoole.Server.ChunkedSend
import OpenSwoole.Server.ClientList
import OpenSwoole.Server.CloseDelivery
import OpenSwoole.Server.CloseOnce
import OpenSwoole.Server.CloseRelease
import OpenSwoole.Server.Http2Receive
import OpenSwoole.Server.Http2Request
import OpenSwoole.Server.Http2SendFailure
import OpenSwoole.Server.Http2Window
import OpenSwoole.Server.HttpFraming
import OpenSwoole.Server.ManagerReload
import OpenSwoole.Server.PauseResume
import OpenSwoole.Server.ReactorPipeRuns
import OpenSwoole.Server.ReactorThreads
import OpenSwoole.Server.SendYield
import OpenSwoole.Server.StaticLinks
import OpenSwoole.Server.Watermarks
import OpenSwoole.Server.Wildcard
