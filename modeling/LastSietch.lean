import LastSietch.Karum.Refunds
import LastSietch.Karum.Stranded
import LastSietch.Nights.Identity
import LastSietch.Nights.Stock
import LastSietch.Nights.Delivery
import LastSietch.Nights.Landsraad
import LastSietch.Nights.Trail
import LastSietch.Rewards.Payout
import LastSietch.Portal.Transfers
import LastSietch.Refinery.Backstop
import LastSietch.Storage.Slots
import LastSietch.Identity.SignIns
import LastSietch.Ops.WelcomeRuns
import LastSietch.Ops.StreakPayouts
import LastSietch.Portal.Repairs
import LastSietch.Ops.StoredBases
import LastSietch.Ops.IpBan
import LastSietch.Grants.Gifts
import LastSietch.Augments.Balance
import LastSietch.Events.Sync
import LastSietch.Events.Weekend
import LastSietch.Contests.Payouts
import LastSietch.Reports.Publisher
import LastSietch.Chat.Relinks
import LastSietch.Chat.Routes
import LastSietch.Chat.Sends
import LastSietch.Portal.LinkQuiz
import LastSietch.Karum.Fills
import LastSietch.Rewards.Monthly
import LastSietch.Karum.PairCap
import LastSietch.Nights.Grants
import LastSietch.Rewards.WeeklyItem
import LastSietch.Refinery.Catalog
import LastSietch.Storage.Replay
import LastSietch.Storage.Volume
import LastSietch.Portal.GiftOp
import LastSietch.Identity.TicketRuns
import LastSietch.Relink.Runs
import LastSietch.Events.Windows
import LastSietch.Prices.Line
import LastSietch.Market.Funding
import LastSietch.Augments.Transplants
import LastSietch.Augments.Replays
import LastSietch.Events.CalendarFeed
import LastSietch.Ops.ClaimReverts
import LastSietch.Market.WatchRuns
import LastSietch.Ops.ArrivalRuns
import LastSietch.Events.ReminderRuns
import LastSietch.Cielago.Draws
import LastSietch.Ops.MapReturn
import LastSietch.Blueprints.MarketRuns
import LastSietch.Grants.Intel
import LastSietch.Ops.Bans
import LastSietch.Telemetry.Combat
import LastSietch.Telemetry.Progression
import LastSietch.Ops.Watchdog
import LastSietch.Ops.Guild
import LastSietch.Ops.VaultJournal
import LastSietch.Telemetry.Ledgers
import LastSietch.Portal.QuizAnswers
