import Reliaburger.Bun.ConsumerOwners
import Reliaburger.Cluster.VolumeGaps
import Reliaburger.Council.Adoption
import Reliaburger.Council.ApiTokens
import Reliaburger.Council.Convergence
import Reliaburger.Council.Discovery
import Reliaburger.Council.Joining
import Reliaburger.Council.Quorum
import Reliaburger.Council.Tidiness
import Reliaburger.Grill.Restore
import Reliaburger.Leader.TaskRoom
import Reliaburger.Lettuce.Diff
import Reliaburger.Mayo.QueryFanout
import Reliaburger.Meat.Rollout
import Reliaburger.Mustard.Membership
import Reliaburger.Registry.Expiry
import Reliaburger.Sesame.Stranding
import Reliaburger.Store.Ownership
import Reliaburger.Store.Replays
import Reliaburger.TaskArray.AcceptedGrants
import Reliaburger.TaskArray.SetRefinement
import Reliaburger.TaskArray.SnapshotValidity
import Reliaburger.Upgrade.FailureGate
