import Redisoo.Safety.SingleResume
import Redisoo.Safety.EventLoop
import Redisoo.Consistency.Durability
import Redisoo.Safety.Disabled
import Redisoo.Structures.DictScan
import Redisoo.Structures.ZsetForms
import Redisoo.Structures.ListpackSeek
import Redisoo.Networking.RespParse
import Redisoo.Persistence.RdbDataset
import Redisoo.Persistence.AofSnapshot
import Redisoo.Persistence.RewriteBuffer
import Redisoo.Structures.HashForms
import Redisoo.Replication.Psync
import Redisoo.Security.AclDescribe
import Redisoo.Security.KeyExtraction
import Redisoo.Streams.BlockedReaders
import Redisoo.Streams.MacroNodes
import Redisoo.Cluster.ElectionSafety
import Redisoo.Cluster.FailureReports
import Redisoo.Consistency.RejectedWrites
import Redisoo.Backend.GetResults
import Redisoo.Structures.SetInter
import Redisoo.Structures.SortLimit
import Redisoo.Strings.BitOffset
import Redisoo.Strings.Increment
import Redisoo.Strings.Lcs
import Redisoo.Consistency.ExpireTimes
import Redisoo.Tracking.Broadcast
import Redisoo.Util.Quoting
