import SignalEngine.RebalancerCore.GuardSpelling
import SignalEngine.RebalancerRun.FillsOnce
import SignalEngine.RebalancerRisk.ReadingFolds
import SignalEngine.RebalancerRisk.LadderMonotone
import SignalEngine.BrokerAdapters.LimitPrices
import SignalEngine.BrokerAdapters.OverridesAllOrNothing
import SignalEngine.RebalancerCore.Deployment
import SignalEngine.BrokerAdapters.Nonce
import SignalEngine.RebalancerRun.Intents
import SignalEngine.RebalancerRun.FlattenCoverBound
import SignalEngine.RebalancerRun.Rehearsal
import SignalEngine.RebalancerRun.NothingUnreported
import SignalEngine.RebalancerRun.Gates
import SignalEngine.RebalancerRun.Acted
import SignalEngine.BrokerAdapters.TagLookup
import SignalEngine.RebalancerAlerts.Watermark
import SignalEngine.RebalancerRun.MonitorRuns
import SignalEngine.RebalancerCore.VenueSizing
import SignalEngine.FakeBroker.LedgerRuns
import SignalEngine.ExecutionHandler.RiskInFlight
import SignalEngine.ExecutionHandler.OrderWalFinal
import SignalEngine.HostBuilder.FillExactness
import SignalEngine.HostBuilder.FillCarry
import SignalEngine.RebalancerCore.Replan
import SignalEngine.MarketData.GateSymmetry
import SignalEngine.MarketData.GateCoverage
import SignalEngine.HostBuilder.FillRejections
import SignalEngine.ExecutionHandler.MarkToMarket
import SignalEngine.ExecutionHandler.AcknowledgedFills
import SignalEngine.ExecutionHandler.MultiLegExposure
import SignalEngine.ExecutionHandler.BreakerHistory
import SignalEngine.OrderBook.PriceTime
import SignalEngine.OrderBook.OrderBounds
import SignalEngine.ExecutionHandler.GapTimer
import SignalEngine.ExecutionHandler.CheckedBooks
import SignalEngine.RebalancerCore.TargetWeights
import SignalEngine.BrokerAdapters.OandaPages
import SignalEngine.ExecutionHandler.PairLinks
import SignalEngine.ExecutionHandler.BoundedDlq
import SignalEngine.ExecutionHandler.TokenBucket
import SignalEngine.RebalancerStore.StateStoreAgreement
import SignalEngine.RebalancerRun.DriverRuns
import SignalEngine.RebalancerStore.AccountIsolation
