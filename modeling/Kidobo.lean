import Kidobo.Network.Effective
import Kidobo.Network.Codec
import Kidobo.Firewall.FailClosed
import Kidobo.Firewall.Wiring
import Kidobo.Firewall.Cleanup
import Kidobo.Firewall.ExactReplacement
import Kidobo.App.SyncOrder
import Kidobo.App.ActiveBans
import Kidobo.App.AsnContract
import Kidobo.App.SafelistContract
import Kidobo.App.PreviewRefines
import Kidobo.App.PartialUpdate
import Kidobo.App.Serialization
import Kidobo.App.ConfigurationContract
import Kidobo.Configuration.EditContract
import Kidobo.App.BanContract
import Kidobo.App.TimedBan
import Kidobo.App.InspectionContract
import Kidobo.LookupOutput
import Kidobo.Cache.AsnPrefixes
import Kidobo.Cache.FeedAcceptance
import Kidobo.Cache.Envelope
import Kidobo.Cache.Extraction
import Kidobo.Cache.LiveSafelist
import Kidobo.Cache.PromotedFetch
import Kidobo.Cache.StoreHistory
import Kidobo.Cache.RemoteChunks
import Kidobo.BanDuration
import Kidobo.App.SyncCompletion
import Kidobo.Firewall.Backend
import Kidobo.Firewall.BackendContract
import Kidobo.Firewall.PacketFilter
import Kidobo.App.SyncGuard
