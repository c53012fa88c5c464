import Twitch1337.Theorems.Addressable
import Twitch1337.Theorems.Agent
import Twitch1337.Theorems.Amounts
import Twitch1337.Theorems.AtomicSaves
import Twitch1337.Theorems.Audit
import Twitch1337.Theorems.Avatars
import Twitch1337.Theorems.Backends
import Twitch1337.Theorems.BlockedHosts
import Twitch1337.Theorems.Boots
import Twitch1337.Theorems.Budget
import Twitch1337.Theorems.BudgetCheck
import Twitch1337.Theorems.Cache
import Twitch1337.Theorems.Calendar
import Twitch1337.Theorems.Capacity
import Twitch1337.Theorems.CatalogLoads
import Twitch1337.Theorems.Channels
import Twitch1337.Theorems.Confirmation
import Twitch1337.Theorems.Counters
import Twitch1337.Theorems.Daily
import Twitch1337.Theorems.DailySessions
import Twitch1337.Theorems.Diversion
import Twitch1337.Theorems.Duration
import Twitch1337.Theorems.Emotes
import Twitch1337.Theorems.Fences
import Twitch1337.Theorems.Filters
import Twitch1337.Theorems.FirstPoll
import Twitch1337.Theorems.FlightDuration
import Twitch1337.Theorems.FlightInfo
import Twitch1337.Theorems.Forms
import Twitch1337.Theorems.Grid
import Twitch1337.Theorems.Journal
import Twitch1337.Theorems.Landing
import Twitch1337.Theorems.Leaderboard
import Twitch1337.Theorems.Legacy
import Twitch1337.Theorems.LostUpdates
import Twitch1337.Theorems.Mentions
import Twitch1337.Theorems.Merge
import Twitch1337.Theorems.Mutations
import Twitch1337.Theorems.News
import Twitch1337.Theorems.Notice
import Twitch1337.Theorems.Orchestrator
import Twitch1337.Theorems.Outbound
import Twitch1337.Theorems.Ownership
import Twitch1337.Theorems.PageCache
import Twitch1337.Theorems.Paging
import Twitch1337.Theorems.Panics
import Twitch1337.Theorems.Patches
import Twitch1337.Theorems.Pings
import Twitch1337.Theorems.PromptEmotes
import Twitch1337.Theorems.Range
import Twitch1337.Theorems.ReadBack
import Twitch1337.Theorems.Redirects
import Twitch1337.Theorems.RejectedSave
import Twitch1337.Theorems.Retention
import Twitch1337.Theorems.Revocation
import Twitch1337.Theorems.Rights
import Twitch1337.Theorems.Rounds
import Twitch1337.Theorems.SaveUnchanged
import Twitch1337.Theorems.SavedValues
import Twitch1337.Theorems.Saves
import Twitch1337.Theorems.SchedulesPage
import Twitch1337.Theorems.Scope
import Twitch1337.Theorems.Sentinels
import Twitch1337.Theorems.Settings
import Twitch1337.Theorems.Suspension
import Twitch1337.Theorems.Telemetry
import Twitch1337.Theorems.Transcripts
import Twitch1337.Theorems.Truncate
import Twitch1337.Theorems.TtlCache
import Twitch1337.Theorems.Unknowns
import Twitch1337.Theorems.Up
import Twitch1337.Theorems.Wakeups
import Twitch1337.Theorems.WriteOnce
import Twitch1337.Theorems.Zombie
