import Floonet.AddressEncoding
import Floonet.Amounts
import Floonet.AuthReplay
import Floonet.Availability
import Floonet.BaseUrl
import Floonet.ClaimRetry
import Floonet.ClockArithmetic
import Floonet.Commits
import Floonet.Custody
import Floonet.Directory
import Floonet.GraceWindow
import Floonet.Launch
import Floonet.LiveOffers
import Floonet.LodgedOffers
import Floonet.Lookalikes
import Floonet.NameOwnership
import Floonet.Node
import Floonet.Payments
import Floonet.Plugin.Admission
import Floonet.Plugin.AuthorList
import Floonet.Plugin.GiftWraps
import Floonet.Plugin.PaidWrites
import Floonet.Plugin.Session
import Floonet.PollSpacing
import Floonet.ProofMessages
import Floonet.RateWindows
import Floonet.Remote
import Floonet.Revocation
