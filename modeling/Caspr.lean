import Caspr.Lib.Run
import Caspr.Lib.Go
import Caspr.Lib.Counter
import Caspr.Lib.NestedCounter
import Caspr.Lib.Rotation
import Caspr.Lib.RoundRobin
import Caspr.Lib.Decimal
import Caspr.Lib.Heap
import Caspr.Lib.HeapOrder
import Caspr.Lib.ContainerHeap
import Caspr.Lib.LinkedList
import Caspr.Lib.Parallel
import Caspr.Framework.Resource
import Caspr.Framework.Types
import Caspr.Framework.Interface
import Caspr.Framework.WaitingPods
import Caspr.Plugins.NodeResources
import Caspr.Cache.NodeTree
import Caspr.Cache.Cache
import Caspr.Framework.Aggregates
import Caspr.Cache.Invariant
import Caspr.Cache.Steps
import Caspr.Cache.Consistency
import Caspr.Cache.Images
import Caspr.Cache.Snapshot
import Caspr.Cache.NodeList
import Caspr.Queue.Heap
import Caspr.Queue.HeapRefinement
import Caspr.Queue.PriorityQueue
import Caspr.Queue.Invariant
import Caspr.Queue.Nominator
import Caspr.Core.GenericScheduler
import Caspr.Core.FeasibleNodes
import Caspr.Scheduler.ScheduleOne
import Caspr.Scheduler.AppMap
import Caspr.Plugins.NodeAffinity
import Caspr.Plugins.PodTopologySpread
import Caspr.Plugins.SpreadCounts
import Caspr.Plugins.InterPodAffinity
import Caspr.Plugins.AffinityCounts
import Caspr.Plugins.NodePorts
import Caspr.Apimachinery.Math
import Caspr.Apimachinery.Amount
import Caspr.Apimachinery.Suffix
import Caspr.Apimachinery.Quantity
import Caspr.Apimachinery.Parse
import Caspr.Apimachinery.Canonical
import Caspr.Core.HostSelection
import Caspr.Queue.Backoff
import Caspr.Plugins.SpreadFilter
import Caspr.Plugins.DefaultPreemption
import Caspr.Plugins.Budgets
import Caspr.Plugins.Candidates
import Caspr.Plugins.Victims
import Caspr.Apimachinery.AddSub
import Caspr.Lib.Interpolation
import Caspr.Plugins.Scorers
import Caspr.Core.PodPassesFilters
import Caspr.Core.FilterNodes
import Caspr.Plugins.RemovalLoop
import Caspr.Queue.PrioritySort
import Caspr.Plugins.InterPodAffinityScore
import Caspr.Plugins.NormalizeScore
import Caspr.Plugins.TaintToleration
import Caspr.Core.Prioritize
