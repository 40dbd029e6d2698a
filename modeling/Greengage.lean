import Greengage.AppendOnly.ChooseSegno
import Greengage.AppendOnly.DirectoryLookups
import Greengage.AppendOnly.HeaderRoundTrip
import Greengage.Bitmap.Build
import Greengage.Bitmap.CatchUp
import Greengage.Bitmap.ReadWords
import Greengage.Bitmap.Replay
import Greengage.Dispatch.JumpHash
import Greengage.Dtm.CommittedTest
import Greengage.Dtm.Cuts
import Greengage.Dtm.Uniqueness
import Greengage.Fts.SyncRep
import Greengage.Gdd.Degrees
import Greengage.Gpfdist.FileStream
import Greengage.Interconnect.Delivery
import Greengage.Motion.DistributionKeys
import Greengage.Motion.GroupingLocus
import Greengage.Motion.Sorting
import Greengage.Orca.DerivationSoundness
import Greengage.Orca.HashedDistribution
import Greengage.Proxy.Incarnations
import Greengage.Rebalance.PlanSafety
import Greengage.Rebalance.Repair
import Greengage.ResGroup.MoveQuery
import Greengage.ResQueue.Charges
import Greengage.Runaway.Protocol
import Greengage.SparseVector.Arithmetic
import Greengage.Sublinks.ScalarSubquery
import Greengage.Vmem.Quota
