import Phantom.StateRes.Blocking
import Phantom.StateRes.EventAuth.UnselectedRules
import Phantom.Sync.Coverage
import Phantom.Sync.Removal
import Phantom.Accounts.Logout
import Phantom.Auth.OwnFlows
import Phantom.Auth.NeverOverspent
import Phantom.Auth.Threepid.SingleUse
import Phantom.Client.Idempotence
import Phantom.EventHandler.Extremities
import Phantom.Rooms.ShortIds
import Phantom.Rooms.Registered
import Phantom.SlidingSync.Lost
import Phantom.Sync.FailedLoads
import Phantom.Sync.Withheld
import Phantom.Pdu.Iteration
import Phantom.AuthChain.Transparent
import Phantom.StateCache.History
import Phantom.Alias.Agreement
import Phantom.ReadReceipt.Pack
import Phantom.AccountData.Kept
import Phantom.RoomUser.Exact
import Phantom.Keys.HandedOut
import Phantom.Accounts.TokenRuns
import Phantom.Keys.SignaturesKept
import Phantom.Sending.Once
import Phantom.Sending.Removed
import Phantom.Sending.Retried
import Phantom.Sending.Selected
import Phantom.Sending.Waiting
import Phantom.Accounts.Lifetimes
import Phantom.Auth.OAuthSessions
import Phantom.Core.Set
import Phantom.Database.Prefix
import Phantom.EventHandler.Gap
import Phantom.Keys.CrossSigning
import Phantom.Media.Thumbnail
import Phantom.Net.ClientIp
import Phantom.Net.Peer
import Phantom.Net.ServerKeys
import Phantom.Sending.QueueKeys
import Phantom.Sending.Status
import Phantom.ServerState.Counter
import Phantom.StateRes.EventAuth.Rank
import Phantom.Transaction.Pdus
import Phantom.Sync.Delivery
