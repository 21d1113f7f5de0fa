import TsServiceLib.Store.JoinProgress
import TsServiceLib.Pool.PriorityOrder
import TsServiceLib.Pool.FifoOrder
import TsServiceLib.Pool.PoolHistory
import TsServiceLib.Kafka.BatchGeneration
import TsServiceLib.Kafka.CheckpointRestoration
import TsServiceLib.Kafka.Acknowledgement
import TsServiceLib.Pool.DelayPool
import TsServiceLib.Pool.DelayLaw
import TsServiceLib.Service.ComponentStops
import TsServiceLib.Service.ServiceRuntime
import TsServiceLib.Service.RuntimeInvariant
import TsServiceLib.Service.StopAttempts
import TsServiceLib.Service.StopCalls
import TsServiceLib.Service.RuntimeRuns
import TsServiceLib.Service.StopOrder
import TsServiceLib.Service.Stragglers
import TsServiceLib.Source.ConcurrencyGate
import TsServiceLib.Source.GateWakeUps
import TsServiceLib.Library.EventLog
import TsServiceLib.Source.RequestProtocol
import TsServiceLib.Source.Retirement
import TsServiceLib.Source.RequestMoves
import TsServiceLib.Source.RetirementOrder
import TsServiceLib.Sink.TemporalSink
import TsServiceLib.Source.RequestOutcome
import TsServiceLib.Library.BigEndian
import TsServiceLib.Library.Framing
import TsServiceLib.Serde.SerdeReader
import TsServiceLib.Serde.ScalarSerdes
import TsServiceLib.Serde.CollectionSerdes
import TsServiceLib.Serde.StreamSerdes
import TsServiceLib.Library.Unicode
import TsServiceLib.Serde.Recovery
import TsServiceLib.Serde.StringSerdes
import TsServiceLib.Serde.LimitSymmetry
import TsServiceLib.Library.Tracing
import TsServiceLib.Serde.DecoderTraces
import TsServiceLib.Store.JoinGauge
import TsServiceLib.Store.MapKeys
import TsServiceLib.Store.RotatingMap
import TsServiceLib.Store.RotatingRefinement
import TsServiceLib.Source.GrpcListeners
import TsServiceLib.Source.ListenerRegistry
import TsServiceLib.Sink.GrpcSessions
import TsServiceLib.Sink.SessionSlots
import TsServiceLib.Sink.SessionOwnership
import TsServiceLib.Sink.SessionProgress
import TsServiceLib.Sink.GrpcDrain
import TsServiceLib.Sink.KafkaSink
import TsServiceLib.Sink.KafkaDeliveries
import TsServiceLib.Sink.DeliveryProgress
import TsServiceLib.Sink.ProducerReplacement
import TsServiceLib.Sink.ProducerOwnership
import TsServiceLib.Sink.OrderlyRuns
import TsServiceLib.Operators.LocalValues
import TsServiceLib.Operators.SubStream
import TsServiceLib.Operators.SubStreamCalls
import TsServiceLib.Operators.CallbackChain
import TsServiceLib.Operators.SubStreamIsolation
import TsServiceLib.Operators.SubStreamSerial
import TsServiceLib.Operators.SubStreamProgress
import TsServiceLib.Operators.DeliveryBatches
import TsServiceLib.Operators.SubStreamOrder
import TsServiceLib.Library.Observation
import TsServiceLib.Workflow.PoolAgreement
import TsServiceLib.Workflow.IdlePromise
import TsServiceLib.Workflow.Quiescence
import TsServiceLib.Config.ConfigLoader
import TsServiceLib.Config.ConfigParser
import TsServiceLib.Config.RuntimeConfig
import TsServiceLib.Config.PoolWiring
import TsServiceLib.Temporal.EndpointRegistry
import TsServiceLib.Context.AbortSignals
import TsServiceLib.Context.ContextDerivation
import TsServiceLib.Kafka.CommitPromises
import TsServiceLib.Service.RegistryDrain
import TsServiceLib.Context.SignalGrowth
import TsServiceLib.Service.SettledWithin
import TsServiceLib.Library.Rounding
import TsServiceLib.Source.IntervalSchedule
import TsServiceLib.Source.CronEndpoint
import TsServiceLib.Operators.SplitStream
import TsServiceLib.Operators.SplitEmission
import TsServiceLib.Sink.StreamSenders
import TsServiceLib.Config.ConfigLayers
import TsServiceLib.Config.LinkSemantics
import TsServiceLib.Config.LayerLaw
import TsServiceLib.Serde.OrderedIntegers
import TsServiceLib.Context.ContextLines
import TsServiceLib.Context.DeadlineHonesty
import TsServiceLib.Context.SignalLinks
import TsServiceLib.Context.AbortOrder
import TsServiceLib.Context.DerivationLaw
import TsServiceLib.Temporal.ConnectorStart
import TsServiceLib.Temporal.StartRollback
import TsServiceLib.Temporal.QueuePolicy
import TsServiceLib.Library.Separated
import TsServiceLib.Temporal.WorkflowIds
import TsServiceLib.Pool.HeapRuns
import TsServiceLib.Pool.AbortSubscriptions
import TsServiceLib.Pool.AbortFanout
import TsServiceLib.Pool.AbortLaw
import TsServiceLib.Source.ResultCallbacks
import TsServiceLib.Source.CallbackRemoval
import TsServiceLib.Source.ScheduleTrigger
import TsServiceLib.Source.CallbackAgreement
import TsServiceLib.Operators.JoinPairs
import TsServiceLib.Operators.CaseStream
import TsServiceLib.Temporal.HeaderText
import TsServiceLib.Temporal.ContextPropagation
import TsServiceLib.Temporal.PropagationLaw
import TsServiceLib.Temporal.DeadlineTravel
import TsServiceLib.Graph.StreamGraph
import TsServiceLib.Graph.GraphLaw
import TsServiceLib.Graph.Topology
import TsServiceLib.Graph.LinkCounts
import TsServiceLib.Operators.FlatMapIterable
