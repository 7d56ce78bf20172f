import Genzh.Lib.Run
import Genzh.Lib.Table
import Genzh.Domain.Room
import Genzh.Domain.Message
import Genzh.Infrastructure.Db
import Genzh.Community.Authorization
import Genzh.Social.Service
import Genzh.Room.Repository
import Genzh.Room.Directs
import Genzh.Room.Media
import Genzh.Messaging.Service
import Genzh.Admin.Live
import Genzh.Admin.Staff
import Genzh.Community.Service
import Genzh.Api.Session
import Genzh.Api.Endpoints
import Genzh.Api.Suspension
import Genzh.Room.Effect
import Genzh.Room.Request
import Genzh.Room.Accounts
import Genzh.Room.Step
import Genzh.Room.Observe
import Genzh.Room.Inversion
import Genzh.Room.Visibility
import Genzh.Room.Blocks
import Genzh.Room.Counts
import Genzh.Room.Lifetime
import Genzh.Room.Capacity
import Genzh.Room.Ended
import Genzh.Lib.Interleaving
import Genzh.Auth.Sessions
import Genzh.Auth.Accounts
import Genzh.Auth.Handle
import Genzh.Auth.OAuth
import Genzh.Auth.Calls
import Genzh.Auth.SignIns
import Genzh.Auth.Linking
import Genzh.Auth.Entry
import Genzh.Auth.Access
import Genzh.Auth.Provisioning
import Genzh.Api.OAuth
import Genzh.Auth.Rotation
import Genzh.Auth.Reuse
import Genzh.Room.OpenRace
import Genzh.Room.Transactions
import Genzh.Room.CountRace
import Genzh.Lib.Policy
import Genzh.Community.Roles
import Genzh.Community.Standing
import Genzh.Community.Resolution
import Genzh.Community.RoleCalls
import Genzh.Community.Escalation
import Genzh.Community.Stripping
import Genzh.Community.Invites
import Genzh.Community.InviteCalls
import Genzh.Community.Redemption
import Genzh.Lib.Map
import Genzh.Lib.Keyed
import Genzh.Lib.Windows
import Genzh.Lib.Keyset
import Genzh.Lib.Script
import Genzh.Lib.Locks
import Genzh.Lib.Transactions
import Genzh.Lib.Phases
import Genzh.Domain.Spam
import Genzh.Domain.Notification
import Genzh.Domain.Gamification
import Genzh.Infrastructure.RateLimit
import Genzh.Infrastructure.Flood
import Genzh.Infrastructure.Attention
import Genzh.Messaging.History
import Genzh.Notification.Repository
import Genzh.Notification.Recording
import Genzh.Notification.Dispatch
import Genzh.Gamification.Store
import Genzh.Gamification.Discipline
import Genzh.Gamification.Handlers
import Genzh.Gamification.Refinement
import Genzh.Gamification.Ledger
import Genzh.Gamification.Checkin
import Genzh.Gamification.Milestones
import Genzh.Gamification.Stock
import Genzh.Gamification.Phases
import Genzh.Gamification.Deletion
import Genzh.Gamification.Wardrobe
import Genzh.Infrastructure.Presence
import Genzh.Api.Presence
import Genzh.Cron.Scheduler
import Genzh.Messaging.Reactions
import Genzh.Api.Protocol
import Genzh.Api.Reactions
import Genzh.Api.Delivery
import Genzh.Api.Administrators
import Genzh.Domain.Support
import Genzh.Admin.Support
import Genzh.Social.Friendships
import Genzh.Api.Persona
import Genzh.Recommend.Score
import Genzh.Recommend.Surfaces
import Genzh.Recommend.Service
import Genzh.Recommend.Quarantine
import Genzh.Recommend.Blocking
import Genzh.Room.Feed
import Genzh.Api.Feed
import Genzh.Api.Faces
import Genzh.Lib.Like
import Genzh.Messaging.Search
import Genzh.Community.Emoji
import Genzh.Community.EmojiCalls
import Genzh.Api.Messages
import Genzh.Api.Authorship
import Genzh.Api.Announcements
import Genzh.Lib.Journal
import Genzh.Client.ChatSocket
import Genzh.Client.Effect
import Genzh.Client.Queue
import Genzh.Client.Attention
import Genzh.Lib.Regex
import Genzh.Lib.Recode
import Genzh.Client.Text
import Genzh.Client.Shortcodes
import Genzh.Client.Mentions
import Genzh.Client.Recognisers
import Genzh.Client.Cache
import Genzh.Client.MessageHistory
import Genzh.Client.Voice
import Genzh.Lib.Serial
import Genzh.Gamification.Streak
import Genzh.Room.Pairs
import Genzh.Community.Spending
import Genzh.Admin.Console
import Genzh.Lib.Masked
import Genzh.Recommend.Aliases
import Genzh.Client.Call
import Genzh.Client.Sparing
import Genzh.Client.Ringing
import Genzh.Notification.Redelivery
import Genzh.Notification.Listing
import Genzh.Admin.Searches
import Genzh.Infrastructure.Sweeping
import Genzh.Infrastructure.FloodWaits
import Genzh.Messaging.Budget
import Genzh.Cron.Registration
import Genzh.Api.Commands
import Genzh.Api.Focus
import Genzh.Api.Typing
import Genzh.Community.Templates
import Genzh.Lib.Words
import Genzh.Domain.Wording
import Genzh.Api.Expiries
import Genzh.Room.Identities
import Genzh.Domain.Mentions
import Genzh.Room.ReadState
import Genzh.Room.Badges
import Genzh.Messaging.Names
import Genzh.Admin.Profiles
import Genzh.Api.Bulk
import Genzh.Recommend.Ranking
import Genzh.Notification.Plan
import Genzh.Api.Revocation
import Genzh.Auth.Handles
import Genzh.Social.Requests
import Genzh.Api.Answers
import Genzh.Room.Channels
import Genzh.Api.Choice
import Genzh.Messaging.Glyphs
import Genzh.Client.CustomEmoji
import Genzh.Client.Completion
import Genzh.Messaging.Occurrences
import Genzh.Client.Merging
import Genzh.Client.Inbox
import Genzh.Client.LiveFeed
import Genzh.Admin.Staleness
import Genzh.Client.Listeners
import Genzh.Client.Overtaking
import Genzh.Admin.Notes
import Genzh.Api.Transcript
import Genzh.Community.Members
import Genzh.Community.Integrity
import Genzh.Admin.Trail
