import ServerStudy.Logic.ServerSteps
import ServerStudy.Theorems.Answered
import ServerStudy.Theorems.BufferQueue
import ServerStudy.Theorems.BufferRange
import ServerStudy.Theorems.Conservation
import ServerStudy.Theorems.FinishedLeft
import ServerStudy.Theorems.HandlerTable
import ServerStudy.Theorems.InOrder
import ServerStudy.Theorems.Isolation
import ServerStudy.Theorems.Lockstep
import ServerStudy.Theorems.LoopEnds
import ServerStudy.Theorems.Output
import ServerStudy.Theorems.Reads
import ServerStudy.Theorems.Reassembly
import ServerStudy.Theorems.SendSuccess
import ServerStudy.Theorems.SetPacket
import ServerStudy.Theorems.WayOut
import ServerStudy.Core.Pipe
import ServerStudy.Logic.Faults
import ServerStudy.Theorems.Delivery
import ServerStudy.Core.Progress
import ServerStudy.Theorems.NoDeadlock
import ServerStudy.Logic.ChatParse
import ServerStudy.Logic.CodedOutput
import ServerStudy.Theorems.ChatFormat
import ServerStudy.Core.FrameQueue
import ServerStudy.Logic.FrameRuns
import ServerStudy.Theorems.FirstBad
import ServerStudy.Theorems.PacketFifo
import ServerStudy.Theorems.Service
import ServerStudy.Core.Digits
import ServerStudy.Fmt.Decimal
import ServerStudy.Fmt.Formatter
import ServerStudy.Logic.Digits
import ServerStudy.Logic.FormatRuns
import ServerStudy.Logic.LogLines
import ServerStudy.Theorems.Formatting
import ServerStudy.EcoClient.Input
import ServerStudy.Logic.Input
import ServerStudy.Theorems.Typing
import ServerStudy.Core.Sockets
import ServerStudy.EcoClient.Alone
import ServerStudy.MServer.Server
import ServerStudy.Theorems.AnyServer
import ServerStudy.Theorems.SocketCalls
