import ChatShow.CommBase.CircleFifo
import ChatShow.CommBase.Segmentation
import ChatShow.Antlib.Tcp4Framing
import ChatShow.DBServer.SaveChain
import ChatShow.DBServer.SaveFailure
import ChatShow.DBServer.Relogin
import ChatShow.DBServer.StaleLoad
import ChatShow.DBServer.Scheduled
import ChatShow.CommBase.RequestToken
import ChatShow.CommBase.RequestAck
import ChatShow.CommBase.AckChannel
import ChatShow.CommBase.DispatchBatch
import ChatShow.CommBase.SendOrder
import ChatShow.CommBase.GroupApart
import ChatShow.CommBase.Handshake
import ChatShow.CommBase.SystemFrames
import ChatShow.CommBase.RecvTurns
import ChatShow.CommBase.MessageDigest
import ChatShow.GameServer.FriendWatch
import ChatShow.GameServer.LoadExport
import ChatShow.DBServer.FailedLoad
import ChatShow.GateServer.ClientIndex
import ChatShow.GateServer.ChannelReuse
import ChatShow.GateServer.ServerRegistry
import ChatShow.GateServer.ClientRelay
import ChatShow.GateServer.ChannelBinding
import ChatShow.GateServer.HeartBeat
import ChatShow.GateServer.ConnectCheck
import ChatShow.GameServer.ExitAck
import ChatShow.GameServer.LoginAck
import ChatShow.GameServer.PeerRegistry
import ChatShow.Antlib.Md5
import ChatShow.CSLoginService.LoginReply
import ChatShow.CSLoginService.Accounts
import ChatShow.CSLoginService.UserRecords
import ChatShow.Antlib.TimerRounds
import ChatShow.Antlib.TimerPace
import ChatShow.Antlib.MsgOwner
import ChatShow.Antlib.HttpChunks
import ChatShow.Antlib.StringRuns
import ChatShow.Antlib.StringServed
import ChatShow.CSLoginService.NetPacket
import ChatShow.CommBase.ConnPools
import ChatShow.GameServer.DirtyData
import ChatShow.GameServer.SaveRouting
import ChatShow.CommBase.RefCount
import ChatShow.CommBase.AllocatorRuns
import ChatShow.CommBase.Realloc
import ChatShow.CommBase.TimerMgr
import ChatShow.CommBase.TimerCancel
import ChatShow.CommBase.SingleTimerMgr
import ChatShow.CommBase.TimerPlaces
import ChatShow.CommBase.SingleTimerPlaces
import ChatShow.CommBase.TimerMgrPlaces
import ChatShow.CommBase.TimerConserved
import ChatShow.CommBase.TimerVisits
import ChatShow.CommBase.TimerClock
import ChatShow.CommBase.TimerTurns
import ChatShow.CommBase.TimerAccuracy
import ChatShow.CommBase.RoundRange
import ChatShow.CommBase.TimerInterface
import ChatShow.CommBase.MonthDays
import ChatShow.CommBase.SameWeek
import ChatShow.CommBase.MonthTimers
import ChatShow.Antlib.SharedQueue
import ChatShow.Antlib.NodePool
import ChatShow.Antlib.Escapes
import ChatShow.Antlib.EscapeBounds
import ChatShow.Antlib.HeaderScan
import ChatShow.Antlib.HttpGetTrip
import ChatShow.Antlib.Tcp4Header
import ChatShow.GateServer.WillLogin
import ChatShow.Antlib.HashCount
import ChatShow.Antlib.SendQueueFifo
import ChatShow.Antlib.ConnectionSend
import ChatShow.Antlib.TcpConnections
import ChatShow.Antlib.NetIds
import ChatShow.CommBase.SessionSend
import ChatShow.CommBase.NetworkMoves
import ChatShow.CommBase.Direction
import ChatShow.CommBase.EventLoop
import ChatShow.CommBase.LostReports
import ChatShow.CommBase.ClosingStream
import ChatShow.Antlib.IniLookups
import ChatShow.Antlib.IniBounds
import ChatShow.CommBase.EventSet
import ChatShow.Dependence.Password
import ChatShow.Antlib.EncryBooks
import ChatShow.Antlib.HandlerQueue
import ChatShow.Antlib.TcpConnected
import ChatShow.Antlib.Dblib
import ChatShow.Antlib.DoubleLists
import ChatShow.DBServer.SaveStatement
import ChatShow.GameServer.CharIds
import ChatShow.CommBase.Utf8Count
import ChatShow.Antlib.HandlerDrain
import ChatShow.CommBase.Md5
import ChatShow.Antlib.TcpServers
import ChatShow.Antlib.HandlerGroups
import ChatShow.CSLoginService.GateLink
import ChatShow.Antlib.WriteEvents
import ChatShow.Antlib.WriteFairness
