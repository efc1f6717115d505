import LightDuer.Net.AesSegmentation
import LightDuer.Net.AesRoundTrip
import LightDuer.Net.AesBounds
import LightDuer.Net.PlainSegmentation
import LightDuer.Net.SocketAdapter
import LightDuer.Net.TlsLifecycle
import LightDuer.Events.Delivery
import LightDuer.Events.Destroy
import LightDuer.Events.WellFormed
import LightDuer.Engine.WakeUp
import LightDuer.Engine.Ownership
import LightDuer.Engine.KeepAlive
import LightDuer.Engine.Quiesce
import LightDuer.Engine.Stop
import LightDuer.Engine.StartLoop
import LightDuer.Engine.Registration
import LightDuer.Engine.AddResources
import LightDuer.Engine.Configuration
import LightDuer.Engine.Messages
import LightDuer.Linux.CheckData
import LightDuer.Linux.SocketLock
import LightDuer.Http.Download
import LightDuer.Http.Ending
import LightDuer.Http.Bounds
import LightDuer.Http.Redirect
import LightDuer.Http.Markers
import LightDuer.Http.Request
import LightDuer.Ota.Splitting
import LightDuer.Ota.Window
import LightDuer.Ota.Install
import LightDuer.Ota.Repeat
import LightDuer.Ota.UpdateCommand
import LightDuer.Ota.Package
import LightDuer.Ota.Owner
import LightDuer.Ota.MetaRuns
import LightDuer.Dcs.Channel
import LightDuer.Dcs.PlayQueue
import LightDuer.Dcs.Router
import LightDuer.Dcs.ListenTimeout
import LightDuer.Dcs.Resume
import LightDuer.Dcs.Directives
import LightDuer.Voice.Session
import LightDuer.Voice.Speex
import LightDuer.Coap.Dispatch
import LightDuer.Ota.FindObject
import LightDuer.Engine.Backoff
import LightDuer.Framework.QueueCache
import LightDuer.Framework.Memory
import LightDuer.Ntp.Client
import LightDuer.LibCoap.Size
import LightDuer.LibCoap.Endless
import LightDuer.LibCoap.Wire
import LightDuer.LibCoap.Retransmission
import LightDuer.LibCoap.Reassembly
import LightDuer.LibCoap.Transfer
import LightDuer.BaiduJson.Parser
import LightDuer.BaiduJson.Printed
import LightDuer.BaiduJson.Buffered
import LightDuer.BaiduJson.Minify
import LightDuer.LibCoap.Response

