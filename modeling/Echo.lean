import Echo.Signal.Rejection
import Echo.Signal.Agreement
import Echo.Signal.Framing
import Echo.Signal.Metering
import Echo.Server.Registration
import Echo.Server.Appearance
import Echo.Server.Selection
import Echo.Groups.KeyOrder
import Echo.Groups.Removal
import Echo.Client.History
import Echo.Devices.Revocation
import Echo.Groups.Departure
import Echo.Timeline.ScrollbackLimits
import Echo.Timeline.Retention
import Echo.Auth.Openings
import Echo.Auth.SingleUse
import Echo.Groups.InviteUses
import Echo.Groups.MemberCounts
import Echo.Canvas.Storage
import Echo.Canvas.Attach
import Echo.Client.Connection
import Echo.Conversations.GroupSends
import Echo.Conversations.Unread
import Echo.Conversations.DirectUse
import Echo.EndToEnd.DirectSends
import Echo.Server.ReadMarks
import Echo.Timeline.Deletions
import Echo.Timeline.OneEntry
import Echo.Uploads.Finalize
import Echo.Client.SignedEnvelopes
import Echo.Contacts.OneEach
import Echo.EndToEnd.GroupCodec
import Echo.Groups.RotationSlots
import Echo.Canvas.Coordinates
import Echo.Timeline.Composing
import Echo.Server.HistoryPages
import Echo.Server.ReplayPages
import Echo.Timeline.DecryptFailures
import Echo.Timeline.CacheEviction
import Echo.Timeline.CachedCopies
import Echo.Timeline.ReplyCounts
import Echo.Canvas.ClearMine
import Echo.Client.SafetyNumber
import Echo.Server.Flood
import Echo.Server.RateLimits
import Echo.Canvas.Holders
import Echo.Mentions.Agreement
import Echo.LinkPreview.Extraction
import Echo.Server.Splicing
import Echo.Uploads.RangeHeaders
