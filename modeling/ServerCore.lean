import ServerCore.Broadcast
import ServerCore.BroadcastInv
import ServerCore.BroadcastJam
import ServerCore.BroadcastOrder
import ServerCore.ChatWire
import ServerCore.ClientReceive
import ServerCore.CompletionNotice
import ServerCore.Console
import ServerCore.ConsoleWire
import ServerCore.FileAttribution
import ServerCore.FileBounds
import ServerCore.FileCancel
import ServerCore.FileChunkSize
import ServerCore.FileCompletion
import ServerCore.FileConfinement
import ServerCore.FileContent
import ServerCore.FileFinal
import ServerCore.FilePath
import ServerCore.FilePayload
import ServerCore.FileReceive
import ServerCore.FileRefusal
import ServerCore.FileRequest
import ServerCore.FileSend
import ServerCore.FileSendQueue
import ServerCore.FileSession
import ServerCore.FileStream
import ServerCore.FileSystem
import ServerCore.FileTransfer
import ServerCore.FileTransferIds
import ServerCore.FileWire
import ServerCore.FileWrite
import ServerCore.GameSession
import ServerCore.Handover
import ServerCore.Lib.Fifo
import ServerCore.Lib.Framing
import ServerCore.Lib.Layout
import ServerCore.Lib.Lexical
import ServerCore.Lib.LittleEndian
import ServerCore.Lib.Multicast
import ServerCore.Lib.Mutex
import ServerCore.Lib.Numeral
import ServerCore.Lib.OrdMap
import ServerCore.Lib.Seg
import ServerCore.Lib.Tally
import ServerCore.Lib.Trans
import ServerCore.MemoryPool
import ServerCore.PacketLink
import ServerCore.PacketLoop
import ServerCore.PacketPipe
import ServerCore.PacketSession
import ServerCore.PoolRecycle
import ServerCore.Reassembly
import ServerCore.ReceiveRoom
import ServerCore.RecvBuffer
import ServerCore.RecvQueue
import ServerCore.SendBuffer
import ServerCore.SendBufferInv
import ServerCore.SendChunkRecycle
import ServerCore.SendFlow
import ServerCore.SendLock
import ServerCore.SendMachine
import ServerCore.SendStream
import ServerCore.SendToken
import ServerCore.ServiceAccept
import ServerCore.ServiceClose
import ServerCore.ServiceCount
import ServerCore.ServiceCycle
import ServerCore.ServiceLife
import ServerCore.ServiceLock
import ServerCore.ServiceMachine
import ServerCore.ServiceOwner
import ServerCore.ServiceSet
import ServerCore.SessionLeftover
import ServerCore.SessionMachine
import ServerCore.SessionReuse
import ServerCore.StressAgreement
import ServerCore.StressCalls
import ServerCore.StressEcho
import ServerCore.StressIdle
import ServerCore.StressPackets
import ServerCore.StressProgress
import ServerCore.StressRequest
import ServerCore.StressStatistics
import ServerCore.StressTest
import ServerCore.StressWire
import ServerCore.TransferSession
import ServerCore.ZeroCopy
