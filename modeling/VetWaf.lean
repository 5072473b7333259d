import VetWaf.Apm.Ranges
import VetWaf.Cfg.Interval
import VetWaf.Cfg.Tokens
import VetWaf.Filter.BlockIp
import VetWaf.Filter.TfLeak
import VetWaf.Filter.TfRate
import VetWaf.Frang.SlidingWindow
import VetWaf.H2.BlockedCount
import VetWaf.H2.CtrlRate
import VetWaf.H2.FrameSync
import VetWaf.H2.HeaderBlock
import VetWaf.H2.RecvAnswers
import VetWaf.H2.SchedPrio
import VetWaf.H2.StreamClose
import VetWaf.H2.StreamOrder
import VetWaf.H2.StreamSend
import VetWaf.H2.WindowBalance
import VetWaf.Hpack.CacheSplit
import VetWaf.Hpack.DecTable
import VetWaf.Hpack.EncRing
import VetWaf.Http.ArgAdjust
import VetWaf.Http.ChunkCut
import VetWaf.Http.ContentLength
import VetWaf.Http.Custom
import VetWaf.Http.FwdRefwd
import VetWaf.Http.HdrLookup
import VetWaf.Http.HdrRaw
import VetWaf.Http.MmapBuffer
import VetWaf.Http.Redirect
import VetWaf.Http.SeqQueue
import VetWaf.Http.StickyVerify
import VetWaf.Http.StrArray
import VetWaf.Http.StrEq
import VetWaf.Pool
import VetWaf.Ratio.Fair
import VetWaf.Sched.HashBest
import VetWaf.Skb.Room
import VetWaf.Sock.OutOfTurn
import VetWaf.Sock.Reconnect
import VetWaf.Sock.Wakeup
import VetWaf.Sock.WorkQueueFifo
import VetWaf.Tdb.BackRun
import VetWaf.Tdb.BurstFail
import VetWaf.Tdb.BurstWalk
import VetWaf.Tdb.NetlinkIf
import VetWaf.Tdb.RemoveKey
