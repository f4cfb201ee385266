import Wireframe.KeyedMap
import Wireframe.MachineWord
import Wireframe.Fragment
import Wireframe.Fragmenter
import Wireframe.Reassembler
import Wireframe.ReassemblerInv
import Wireframe.Bincode
import Wireframe.FragmentPayload
import Wireframe.Interleaving
import Wireframe.FragmentAdapter
import Wireframe.PoolSlot
import Wireframe.PoolOwnership
import Wireframe.PoolGate
import Wireframe.SchedulerState
import Wireframe.PoolScheduler
import Wireframe.PoolSchedulerSteps
import Wireframe.PoolReplies
import Wireframe.PoolPermits
import Wireframe.PoolSchedulerSafety
import Wireframe.MessageAssembly
import Wireframe.MessageAssemblySteps
import Wireframe.MessageHistory
import Wireframe.MessageLimits
import Wireframe.LengthFraming
import Wireframe.FrameDecoder
import Wireframe.Channel
import Wireframe.ConnectionActor
import Wireframe.ConnectionActorSteps
import Wireframe.ConnectionLifecycle
import Wireframe.ConnectionDelivery
import Wireframe.InboundHandler
import Wireframe.DeserFailures
import Wireframe.MemoryPressure
import Wireframe.PoolAffinity
import Wireframe.MessageIsolation
import Wireframe.Preamble
import Wireframe.RewindStream
import Wireframe.Rotation
import Wireframe.SchedulerQueues
import Wireframe.SchedulerFairness
import Wireframe.PoolQueues
import Wireframe.FragmentSplit
import Wireframe.FragmentBudget
import Wireframe.LengthPrefix
import Wireframe.SendStreaming
import Wireframe.ReassemblerFootprint
import Wireframe.ConnectionFairness
import Wireframe.ConnectionCorrelation
import Wireframe.DeadLetters
import Wireframe.FragmentSeriesHistory
import Wireframe.MessageSeriesHistory
import Wireframe.PoolRotation
import Wireframe.ResponseStream
import Wireframe.ServerDrain
import Wireframe.ServerShutdown
import Wireframe.SessionRegistry
import Wireframe.DecimalText
import Wireframe.FrameCodecs
import Wireframe.RespCodec
import Wireframe.RespRoundTrip
import Wireframe.BoundedChannel
import Wireframe.ClientExchange
import Wireframe.PushQueueOrder
import Wireframe.PushQueueWaits
import Wireframe.FragmentTraffic
import Wireframe.Handshake
import Wireframe.HandshakeAccount
import Wireframe.HandshakeAgreement
import Wireframe.HandshakeScript
