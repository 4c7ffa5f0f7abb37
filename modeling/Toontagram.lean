import Toontagram.Account.Phones
import Toontagram.Account.Studio
import Toontagram.Api.Finish
import Toontagram.Comment.Thread
import Toontagram.Document.Inbox
import Toontagram.Document.Deleted
import Toontagram.Document.Notices
import Toontagram.Document.References
import Toontagram.Document.Signature
import Toontagram.Draft.Desk
import Toontagram.Draft.Publish
import Toontagram.Feed.Away
import Toontagram.Feed.Delivered
import Toontagram.Feed.Join
import Toontagram.Feed.Screens
import Toontagram.Feed.Switch
import Toontagram.Like.Bound
import Toontagram.Like.Counter
import Toontagram.Mirror.Fleet
import Toontagram.Mirror.Order
import Toontagram.Mirror.Outcome
import Toontagram.Mirror.Stats
import Toontagram.Model.RoundTrip
import Toontagram.Network.Concurrent
import Toontagram.Network.Refine
import Toontagram.Notification.Cells
import Toontagram.Notification.Rows
import Toontagram.Screen.Arrival
import Toontagram.Screen.Cartoon
import Toontagram.Screen.HomeRows
import Toontagram.Screen.Loader
import Toontagram.Screen.Readers
import Toontagram.Screen.Profile
import Toontagram.Screen.Refresh
import Toontagram.Screen.Search
import Toontagram.Storage.PictureUrls
import Toontagram.Storage.Pictures
import Toontagram.Storage.Profiles
