import Pinos.Client.Arguments
import Pinos.Client.Array
import Pinos.Client.CallRoundTrip
import Pinos.Client.Calls
import Pinos.Client.Connection
import Pinos.Client.Context
import Pinos.Client.ConversationRuns
import Pinos.Client.Demarshal
import Pinos.Client.FdPassing
import Pinos.Client.FindBuffer
import Pinos.Client.Framing
import Pinos.Client.FreeBuffers
import Pinos.Client.GetNext
import Pinos.Client.HeldBuffers
import Pinos.Client.InfoUpdate
import Pinos.Client.Interfaces
import Pinos.Client.Loop
import Pinos.Client.LoopQueue
import Pinos.Client.LoopSources
import Pinos.Client.Map
import Pinos.Client.MapChain
import Pinos.Client.MapIds
import Pinos.Client.Mapper
import Pinos.Client.Properties
import Pinos.Client.ProtocolNative
import Pinos.Client.Reconnect
import Pinos.Client.Remap
import Pinos.Client.RemapTree
import Pinos.Client.Sending
import Pinos.Client.Signal
import Pinos.Client.Stream
import Pinos.Client.StreamAnswers
import Pinos.Client.ThreadMainLoop
import Pinos.Client.Transport
import Pinos.Client.Type
import Pinos.Client.TypeMap
import Pinos.Client.TypeSync
import Pinos.Client.Utils
import Pinos.Client.WritePod
import Pinos.Client.WriteValues
import Pinos.Lib.ByteMem
import Pinos.Lib.ByteRing
import Pinos.Lib.CSpan
import Pinos.Lib.Comparison
import Pinos.Lib.Entries
import Pinos.Lib.FreeList
import Pinos.Lib.Halting
import Pinos.Lib.Intervals
import Pinos.Lib.LastWriter
import Pinos.Lib.ListCells
import Pinos.Lib.Mirror
import Pinos.Lib.Run
import Pinos.Modules.Autolink
import Pinos.Modules.AutolinkListeners
import Pinos.Modules.IdleTimers
import Pinos.Modules.Relink
import Pinos.Modules.SuspendOnIdle
import Pinos.Plugins.AudioStream
import Pinos.Plugins.MixerOwnership
import Pinos.Plugins.MixerRuns
import Pinos.Plugins.V4l2EnumCalls
import Pinos.Plugins.V4l2EnumEnds
import Pinos.Plugins.V4l2EnumFormat
import Pinos.Plugins.V4l2Filter
import Pinos.Plugins.V4l2Runs
import Pinos.Plugins.Volume
import Pinos.Plugins.VolumeBuffers
import Pinos.Server.Allocation
import Pinos.Server.AsyncSeq
import Pinos.Server.BindingRuns
import Pinos.Server.BufferLoans
import Pinos.Server.ClientNode
import Pinos.Server.Command
import Pinos.Server.Core
import Pinos.Server.Counted
import Pinos.Server.EnumFormats
import Pinos.Server.FindPort
import Pinos.Server.Graph
import Pinos.Server.Infos
import Pinos.Server.InputSlot
import Pinos.Server.Link
import Pinos.Server.LinkCounts
import Pinos.Server.LinkStates
import Pinos.Server.MetaParams
import Pinos.Server.NodeFlow
import Pinos.Server.NodeRelay
import Pinos.Server.NodeStates
import Pinos.Server.ObjectIds
import Pinos.Server.OutputSlot
import Pinos.Server.PortCounts
import Pinos.Server.PortIndexes
import Pinos.Server.PortUpdates
import Pinos.Server.ProtocolNative
import Pinos.Server.Pull
import Pinos.Server.Registry
import Pinos.Server.SeenBuffers
import Pinos.Server.Teardown
import Pinos.Server.Wiring
import Pinos.Server.WorkLedger
import Pinos.Server.WorkQueue
import Pinos.Spa.Defs
import Pinos.Spa.FilterForm
import Pinos.Spa.FixedBuilder
import Pinos.Spa.FormatShape
import Pinos.Spa.IterBounds
import Pinos.Spa.Pod
import Pinos.Spa.PodAdd
import Pinos.Spa.PodAppend
import Pinos.Spa.PodBuilder
import Pinos.Spa.PodGet
import Pinos.Spa.PodIter
import Pinos.Spa.PodStruct
import Pinos.Spa.Props
import Pinos.Spa.PropsFilter
import Pinos.Spa.QueryRequests
import Pinos.Spa.Ringbuffer
import Pinos.Spa.RoundTrip
import Pinos.Spa.ValueOrder
