import TrafficGen.Control.Client
import TrafficGen.Control.Runner
import TrafficGen.Control.Server
import TrafficGen.Control.Threads
import TrafficGen.Core.EthDev
import TrafficGen.Core.FlowObjects
import TrafficGen.Core.FlowScheduler
import TrafficGen.Core.ImixEngine
import TrafficGen.Core.Locking
import TrafficGen.Core.Mbuf
import TrafficGen.Core.MempoolManager
import TrafficGen.Core.MetricsAccess
import TrafficGen.Core.MetricsCollector
import TrafficGen.Core.PacketBuilder
import TrafficGen.Core.PacketMutator
import TrafficGen.Core.Receive
import TrafficGen.Core.TcpState
import TrafficGen.Core.TokenBucket
import TrafficGen.Core.TokenBucketAccess
import TrafficGen.Core.Types
import TrafficGen.Core.Worker
import TrafficGen.Core.WorkerThread
import TrafficGen.ForStd.Binning
import TrafficGen.ForStd.ByteMem
import TrafficGen.ForStd.Double
import TrafficGen.ForStd.DrawStream
import TrafficGen.ForStd.FairRuns
import TrafficGen.ForStd.Floors
import TrafficGen.ForStd.HexDigit
import TrafficGen.ForStd.JsonGrammar
import TrafficGen.ForStd.JsonNumber
import TrafficGen.ForStd.JsonString
import TrafficGen.ForStd.JsonText
import TrafficGen.ForStd.KeyedIndex
import TrafficGen.ForStd.LockOrder
import TrafficGen.ForStd.MacText
import TrafficGen.ForStd.Nesting
import TrafficGen.ForStd.OnesComplement
import TrafficGen.ForStd.ReadTrace
import TrafficGen.ForStd.Run
import TrafficGen.ForStd.SequenceSpace
import TrafficGen.ForStd.Simulation
import TrafficGen.ForStd.TextSearch
import TrafficGen.ForStd.Unwinding
import TrafficGen.Main
import TrafficGen.Shutdown
import TrafficGen.Spec.BatchOrder
import TrafficGen.Spec.BufferBounds
import TrafficGen.Spec.BurstPairing
import TrafficGen.Spec.BurstPlan
import TrafficGen.Spec.ChecksumCorrect
import TrafficGen.Spec.ClientFlows
import TrafficGen.Spec.CloneCorrect
import TrafficGen.Spec.ClonedPackets
import TrafficGen.Spec.ConfigBraces
import TrafficGen.Spec.ConfigKeys
import TrafficGen.Spec.ConfigLiterals
import TrafficGen.Spec.ConfigReader
import TrafficGen.Spec.ConfigRoundTrip
import TrafficGen.Spec.ConfigSchema
import TrafficGen.Spec.ConfigSearch
import TrafficGen.Spec.ConfigSplit
import TrafficGen.Spec.ConfigStrings
import TrafficGen.Spec.ConfigText
import TrafficGen.Spec.ConnectionRuns
import TrafficGen.Spec.ConnectionTable
import TrafficGen.Spec.DeadlockFree
import TrafficGen.Spec.DrainedWorkers
import TrafficGen.Spec.FailedRequests
import TrafficGen.Spec.FlowAccounting
import TrafficGen.Spec.FlowActivity
import TrafficGen.Spec.FlowCoherence
import TrafficGen.Spec.FlowPointers
import TrafficGen.Spec.FlowRequests
import TrafficGen.Spec.FlowTable
import TrafficGen.Spec.FrameParsing
import TrafficGen.Spec.HeaderAgreement
import TrafficGen.Spec.IcmpFrames
import TrafficGen.Spec.LatencyHistogram
import TrafficGen.Spec.LatencySamples
import TrafficGen.Spec.LengthFields
import TrafficGen.Spec.LookupIndex
import TrafficGen.Spec.MacAcceptance
import TrafficGen.Spec.MacAddress
import TrafficGen.Spec.MalformedConfig
import TrafficGen.Spec.MetricsInterleaving
import TrafficGen.Spec.MetricsSums
import TrafficGen.Spec.NumberFields
import TrafficGen.Spec.OmittedMembers
import TrafficGen.Spec.PacketSizes
import TrafficGen.Spec.PassInvariant
import TrafficGen.Spec.PlainPath
import TrafficGen.Spec.PoolExhaustion
import TrafficGen.Spec.RandomReplay
import TrafficGen.Spec.RateReporting
import TrafficGen.Spec.RateShaping
import TrafficGen.Spec.ReadyFlows
import TrafficGen.Spec.ReceivePath
import TrafficGen.Spec.ReceivedSegments
import TrafficGen.Spec.SerialRuns
import TrafficGen.Spec.ServedRates
import TrafficGen.Spec.ShutdownOrder
import TrafficGen.Spec.ShutdownReturns
import TrafficGen.Spec.SilentRuns
import TrafficGen.Spec.SizeArithmetic
import TrafficGen.Spec.StatefulTransmit
import TrafficGen.Spec.StatsReset
import TrafficGen.Spec.StopLatency
import TrafficGen.Spec.TcpSegments
import TrafficGen.Spec.TemplateCorrect
import TrafficGen.Spec.TemplateReuse
import TrafficGen.Spec.TokenBucketInterleaving
import TrafficGen.Spec.TokenBucketRate
import TrafficGen.Spec.TokenBucketRateChange
import TrafficGen.Spec.TokenBucketRefill
import TrafficGen.Spec.TransmitCounts
import TrafficGen.Spec.UnheardSegments
import TrafficGen.Spec.WorkerLifecycle
import TrafficGen.Spec.WorkerQueues
import TrafficGen.Spec.WorkerStats
import TrafficGen.Util.ConfigParser
