import AuditGuard.DelegatedStaking.Claiming
import AuditGuard.DelegatedStaking.Capacity
import AuditGuard.StakingManager.Exit
import AuditGuard.AgentRegistry.Tiers
import AuditGuard.AgentRegistry.Scores
import AuditGuard.AgentRegistry.History
import AuditGuard.AuditVault.Bounties
import AuditGuard.AuditVault.Shares
import AuditGuard.AuditVault.Monitoring
import AuditGuard.VaultFactory.Priority
import AuditGuard.AuditBudgetVault.Monitoring
import AuditGuard.AuditAuction.Escrow
import AuditGuard.AuditAuction.Closing
import AuditGuard.DataMarketplace.Buyers
import AuditGuard.DataMarketplace.Sales
import AuditGuard.AuditScheduler.Owners
import AuditGuard.PaymentSettlement.Preview
import AuditGuard.GuardExchange
import AuditGuard.Deployment.AuctionRegistry
import AuditGuard.Deployment.SettlementLedger
import AuditGuard.Deployment.StakingRegistry
import AuditGuard.Deployment.SubAuctionRegistry
import AuditGuard.Deployment.Revenue
import AuditGuard.Orchestrator.Flags
import AuditGuard.Orchestrator.Winners
import AuditGuard.Orchestrator.Scoring
import AuditGuard.Orchestrator.Starvation
import AuditGuard.Discovery.Deduplication
import AuditGuard.JobLock
import AuditGuard.Reporting.Mocks
import AuditGuard.Reporting.Redelivery
import AuditGuard.Reporting.Settling
import AuditGuard.Reporting.Split
import AuditGuard.Liveness
import AuditGuard.Enrichment
import AuditGuard.Invitation
import AuditGuard.SlashRelay.Relay
import AuditGuard.Bidding.Window
import AuditGuard.Bidding.Pricing
import AuditGuard.BiddingAgent.Work
import AuditGuard.Aggregation.Totals
import AuditGuard.ReportAgent
import AuditGuard.Scanner.Cycles
import AuditGuard.ReportStore
import AuditGuard.StateStore
import AuditGuard.HederaAddress
import AuditGuard.ResponseParser
import AuditGuard.TopUp
import AuditGuard.WriteQueue.Fairness
import AuditGuard.EventListener
import AuditGuard.Inft.Breakdown
import AuditGuard.Inft.WriteLane
import AuditGuard.Inft.Blobs
import AuditGuard.Inft.Simulation
import AuditGuard.Inft.Counting
import AuditGuard.Inft.Following
import AuditGuard.ContractHealth
import AuditGuard.EventStore.Agreement
