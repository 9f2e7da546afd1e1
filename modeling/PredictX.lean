import PredictX.Amm.RoundTrip
import PredictX.Api.LpAnalytics
import PredictX.Api.OrderList
import PredictX.Api.PoolSessions
import PredictX.Api.PositionList
import PredictX.Api.ResolutionSessions
import PredictX.Api.Trades
import PredictX.Client.Chart
import PredictX.Client.JavaScript
import PredictX.Client.LivePrice
import PredictX.Client.MutationRequest
import PredictX.Client.PriceAnnouncer
import PredictX.Client.SessionMachine
import PredictX.Data.History
import PredictX.Data.Ipv6
import PredictX.Data.Paging
import PredictX.Properties.AlertOnce
import PredictX.Properties.AnnouncedFills
import PredictX.Properties.AuditPromise
import PredictX.Properties.Bans
import PredictX.Properties.BatchPrices
import PredictX.Properties.BreakerProgress
import PredictX.Properties.Candles
import PredictX.Properties.ChainCap
import PredictX.Properties.ChannelHolds
import PredictX.Properties.ChartedPrices
import PredictX.Properties.ConnectionCaps
import PredictX.Properties.Consent
import PredictX.Properties.CriticalFrames
import PredictX.Properties.DeletedAccounts
import PredictX.Properties.DisplayedBook
import PredictX.Properties.DisplayedValue
import PredictX.Properties.DisputeRulings
import PredictX.Properties.DueAlerts
import PredictX.Properties.EscrowSolvency
import PredictX.Properties.ExactBuy
import PredictX.Properties.ExactDecimals
import PredictX.Properties.ExchangeBooks
import PredictX.Properties.ExternalMoney
import PredictX.Properties.FillPaths
import PredictX.Properties.FillReports
import PredictX.Properties.FinalResolution
import PredictX.Properties.FormSubmissions
import PredictX.Properties.GapCoverage
import PredictX.Properties.GridGaps
import PredictX.Properties.GridWindows
import PredictX.Properties.IdempotentOrders
import PredictX.Properties.LimitPrice
import PredictX.Properties.ListCache
import PredictX.Properties.LiveSessions
import PredictX.Properties.LockedFunds
import PredictX.Properties.LoginFriction
import PredictX.Properties.MakerFunding
import PredictX.Properties.MarketChannels
import PredictX.Properties.MarketLocks
import PredictX.Properties.MatcherAgreement
import PredictX.Properties.MoneyConservation
import PredictX.Properties.MoneySupply
import PredictX.Properties.NetworkKeys
import PredictX.Properties.NewestPrice
import PredictX.Properties.NoShortPositions
import PredictX.Properties.NoTrace
import PredictX.Properties.OneOutcome
import PredictX.Properties.OneTimeCredentials
import PredictX.Properties.OrderLifeCycle
import PredictX.Properties.OrderPlacement
import PredictX.Properties.OwedResyncs
import PredictX.Properties.PagedListings
import PredictX.Properties.PairNeutrality
import PredictX.Properties.ParimutuelSolvency
import PredictX.Properties.PayOnce
import PredictX.Properties.PoolSerialisation
import PredictX.Properties.PostOnly
import PredictX.Properties.PriceDistribution
import PredictX.Properties.PriceOverlays
import PredictX.Properties.PriceSnapshots
import PredictX.Properties.PriceSync
import PredictX.Properties.PriceTimePriority
import PredictX.Properties.PrivateChannels
import PredictX.Properties.PrivateFeed
import PredictX.Properties.ProgressiveFriction
import PredictX.Properties.ProvenSignIns
import PredictX.Properties.ProviderFairness
import PredictX.Properties.QuoteReceipt
import PredictX.Properties.RepeatedMutations
import PredictX.Properties.ReservedFunds
import PredictX.Properties.SellBack
import PredictX.Properties.SessionLoss
import PredictX.Properties.SettlementRounding
import PredictX.Properties.ShareConservation
import PredictX.Properties.SilentGaps
import PredictX.Properties.SingleFlight
import PredictX.Properties.SlippageBound
import PredictX.Properties.SocketCounters
import PredictX.Properties.SocketMaps
import PredictX.Properties.StatusChanges
import PredictX.Properties.StrandedLiquidity
import PredictX.Properties.SweepConcurrency
import PredictX.Properties.TotalMoves
import PredictX.Properties.TradeFeed
import PredictX.Properties.TradeRows
import PredictX.Properties.TradesFeedLife
import PredictX.Properties.TreasuryWithdrawals
import PredictX.Properties.WalletHistory
import PredictX.Properties.WantedChannels
import PredictX.Properties.WantedSocket
import PredictX.Properties.WindowCount
import PredictX.Properties.WireSubscriptions
import PredictX.Properties.WithdrawalKeys
import PredictX.Services.BookPlan
import PredictX.Services.OrderCases
import PredictX.Services.Quotes
import PredictX.Websocket.GridFeed
import PredictX.Websocket.ManagerSteps
import PredictX.Websocket.SharedSocket
import PredictX.Websocket.UserLinks
import PredictX.Websocket.UserSocket
import PredictX.Workers.SweepCases
import PredictX.Workers.SweepNotices
import PredictX.Workers.SweepSessions
