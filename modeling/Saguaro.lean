import Saguaro.Buffer.Allocator
import Saguaro.Buffer.PageMap
import Saguaro.Compress.Registry
import Saguaro.Copy.RoundTrip
import Saguaro.Executor.Memo
import Saguaro.Index.Accepted
import Saguaro.Locks.Safety
import Saguaro.Protocol.Segmentation
import Saguaro.Recovery.Rebuild
import Saguaro.Relations.Files
import Saguaro.Session.Reported
import Saguaro.Spill.Sorter
import Saguaro.Ssi.Serializable
import Saguaro.Txn.Snapshots
