import OteStack.Lib.GoMap
import OteStack.Lib.StepSystem
import OteStack.Lib.Worklist
import OteStack.Lib.GoStrings
import OteStack.Lib.PlainPattern
import OteStack.ClusterMessage
import OteStack.ClusterSelector
import OteStack.ClusterRouter.Router
import OteStack.ClusterHandler.Broadcast
import OteStack.ClusterRouter.Routes
import OteStack.Lib.KubeApi
import OteStack.ControllerManager.Upstream
import OteStack.ControllerManager.Upsert
import OteStack.Lib.Ownership
import OteStack.ControllerManager.Isolation
import OteStack.ControllerManager.Convergence
import OteStack.ControllerManager.PodBatch
import OteStack.Lib.Interleaving
import OteStack.Lib.Optimistic
import OteStack.ControllerManager.ConcurrentUpsert
import OteStack.ClusterHandler.Node
import OteStack.ClusterHandler.Connections
import OteStack.ClusterHandler.LiveRoutes
import OteStack.ClusterHandler.Neighbors
import OteStack.ClusterHandler.NeighborSync
import OteStack.Lib.MergePatch
import OteStack.Lib.CustomResource
import OteStack.K8sClient.ClusterCRD
import OteStack.K8sClient.ConcurrentStatus
import OteStack.Lib.LastWriter
import OteStack.ClusterHandler.ClusterStatus
import OteStack.ClusterHandler.ConnectionStatus
import OteStack.Tunnel.EdgeTunnel
import OteStack.Tunnel.Failover
import OteStack.EdgeHub.Storage
import OteStack.EdgeHub.Restart
import OteStack.EdgeHub.Hub
import OteStack.EdgeHub.Bootstrap
import OteStack.Lib.Faults
import OteStack.Controller.EdgeNode
import OteStack.Controller.EdgeNodeStatus
import OteStack.EdgeHub.WatchFilter
import OteStack.EdgeHub.Subscriber
import OteStack.EdgeHub.Delivery
import OteStack.EdgeHub.DeliveryOrder
import OteStack.Lib.ChangeQueue
import OteStack.EdgeHub.WatchStream
import OteStack.EdgeHub.MergeRace
import OteStack.EdgeHandler.ControlRequest
import OteStack.Lib.GoPanic
import OteStack.ClusterHandler.RootMessages
import OteStack.Lib.GoSlice
import OteStack.Tunnel.ControllerTunnel
import OteStack.Tunnel.SenderWait
import OteStack.Tunnel.ControllerSearch
import OteStack.Tunnel.ControllerKeys
import OteStack.Tunnel.KeyBalance
import OteStack.LoadBalancer.Backend
import OteStack.ClusterShim.ShimConnections
import OteStack.ClusterShim.Shim
import OteStack.EdgeHandler.ParentBytes
import OteStack.EdgeHandler.ShimModes
import OteStack.ControllerManager.EdgeReports
import OteStack.ClusterHandler.SelectChild
import OteStack.LoadBalancer.RoundRobin
import OteStack.Tunnel.Candidates
import OteStack.ClusterHandler.ResponseMerge
import OteStack.ControllerManager.FullList
import OteStack.Reporter.Notifications
import OteStack.Lib.Course
import OteStack.ControllerManager.PodUpdate
import OteStack.Reporter.ClusterStatusReport
import OteStack.ControllerManager.ClusterStatusReports
import OteStack.Tunnel.BlackList
import OteStack.LoadBalancer.ServerSet
import OteStack.Lib.MapLog
import OteStack.EdgeHub.FlatStore
import OteStack.EdgeHub.MergeDelete
import OteStack.EdgeHub.FieldSelector
import OteStack.EdgeHub.Token
import OteStack.Tunnel.SendOrder
import OteStack.EdgeHandler.SubtreeReport
import OteStack.Lib.RWMutex
import OteStack.Lib.LockUp
import OteStack.ClusterRouter.Locks
import OteStack.Lib.Rounds
import OteStack.ClusterHandler.ClusterTree
import OteStack.ClusterHandler.TreeRepair
import OteStack.ClusterHandler.ControlTask
import OteStack.ClusterHandler.TaskResults
import OteStack.EdgeHub.RestApi
import OteStack.EdgeHub.KeylessCreate
import OteStack.Controller.NamespaceSync
import OteStack.Controller.NamespaceDelivery
import OteStack.Controller.NamespaceMissed
import OteStack.ClusterController.LeaderElection
import OteStack.ClusterShim.ReporterLifecycle
import OteStack.ClusterController.RootCluster
import OteStack.ClusterController.RootResults
