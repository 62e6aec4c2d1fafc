import RlpSidecar.Circular
import RlpSidecar.Abort
import RlpSidecar.LocalMap
import RlpSidecar.LocalMapLookups
import RlpSidecar.LocalMapIterator
import RlpSidecar.Runs
import RlpSidecar.Admission
import RlpSidecar.CreditQueue
import RlpSidecar.InnerQueueSpec
import RlpSidecar.CreditQueueSpec
import RlpSidecar.CreditQueueRuns
import RlpSidecar.CreditQueueConservation
import RlpSidecar.CreditQueueFairness
import RlpSidecar.CreditQueueTurns
import RlpSidecar.Wire
import RlpSidecar.Datagram
import RlpSidecar.DatagramRoundTrip
import RlpSidecar.Server
import RlpSidecar.Averages
import RlpSidecar.SignedInt
import RlpSidecar.LimitUpdates
import RlpSidecar.LimitSoundness
import RlpSidecar.ServerSpec
import RlpSidecar.LimitServer
import RlpSidecar.ServerAccounting
import RlpSidecar.LeafSafety
import RlpSidecar.ServerBacklog
import RlpSidecar.Tables
import RlpSidecar.RpcMessage
import RlpSidecar.RpcMapper
import RlpSidecar.RpcTraffic
import RlpSidecar.RpcCoherence
import RlpSidecar.Mesh
import RlpSidecar.RttArithmetic
import RlpSidecar.MeshBook
import RlpSidecar.MeshCoupling
import RlpSidecar.MeshSteps
import RlpSidecar.MeshGrants
import RlpSidecar.MeshEvents
import RlpSidecar.MeshRuns
import RlpSidecar.MeshProgress
import RlpSidecar.MeshConservation
import RlpSidecar.MeshForwarding
import RlpSidecar.MeshActive
import RlpSidecar.MeshDynamic
import RlpSidecar.Decimal
import RlpSidecar.Messages
import RlpSidecar.RequestTarget
import RlpSidecar.LocalIds
import RlpSidecar.HeaderNames
import RlpSidecar.Recycling
import RlpSidecar.HeaderStorage
import RlpSidecar.Ingress
import RlpSidecar.Priorities
import RlpSidecar.EventLoop
import RlpSidecar.EventLoopObjects
import RlpSidecar.EventLoopWrites
import RlpSidecar.EventLoopListeners
import RlpSidecar.EventLoopEntries
import RlpSidecar.GrpcResponses
import RlpSidecar.DataStreams
import RlpSidecar.GrpcRequests
import RlpSidecar.PicoHttp
import RlpSidecar.PicoHttpSpec
import RlpSidecar.HttpConnection
import RlpSidecar.HttpReads
import RlpSidecar.Incremental
import RlpSidecar.PicoHttpPieces
import RlpSidecar.FastScan
import RlpSidecar.HttpRequestReads
import RlpSidecar.EdgeReads
import RlpSidecar.EdgeForwarding
import RlpSidecar.ResponseForwarding
import RlpSidecar.ConnectionPool
import RlpSidecar.HttpUpstreams
import RlpSidecar.HttpUpstreamSpec
import RlpSidecar.HttpUpstreamRuns
import RlpSidecar.IngressWorker
import RlpSidecar.IngressWorkerSpec
import RlpSidecar.IngressCycle
import RlpSidecar.IngressRegular
import RlpSidecar.IngressProgress
import RlpSidecar.Deployment
import RlpSidecar.DeploymentSpec
import RlpSidecar.DeploymentSafety
import RlpSidecar.Signals
import RlpSidecar.TimeWeightedMean
import RlpSidecar.Quantiles
import RlpSidecar.QuantileEstimator
import RlpSidecar.Decrease
import RlpSidecar.IngressCap
import RlpSidecar.BufferManager
import RlpSidecar.BufferCustody
import RlpSidecar.Packing
import RlpSidecar.HttpWrites
import RlpSidecar.HttpWriteSpec
import RlpSidecar.RouteResolution
