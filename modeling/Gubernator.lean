import Gubernator.Library.BitFlags
import Gubernator.Library.GoStrings
import Gubernator.Library.Int64Range
import Gubernator.Library.CivilTime
import Gubernator.Library.LinkedList
import Gubernator.Library.RecencyList
import Gubernator.Library.Truncation
import Gubernator.Library.Run
import Gubernator.Library.Interleave
import Gubernator.Library.OneShot
import Gubernator.Library.GoSort
import Gubernator.Library.SortedRing
import Gubernator.Library.Slots
import Gubernator.Proto
import Gubernator.Interval
import Gubernator.Cache
import Gubernator.LRUCache
import Gubernator.LRURun
import Gubernator.Bucket
import Gubernator.TokenBucket
import Gubernator.LeakyBucket
import Gubernator.Admission
import Gubernator.TokenBucketRun
import Gubernator.LeakyBucketRun
import Gubernator.OneKeyRun
import Gubernator.FirstRequest
import Gubernator.Renewal
import Gubernator.ConfigChange
import Gubernator.Workers
import Gubernator.WorkerShards
import Gubernator.StoreSync
import Gubernator.Instance
import Gubernator.Global
import Gubernator.Broadcast
import Gubernator.ReplicatedHash
import Gubernator.Forwarding
import Gubernator.Batching
import Gubernator.Routing
import Gubernator.CacheFrame
import Gubernator.PoolRun
import Gubernator.PoolInvariants
import Gubernator.PoolCapacity
import Gubernator.GregorianInterval
import Gubernator.Peers
import Gubernator.EnvFile
