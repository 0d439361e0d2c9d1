import RiverProtocol.Lib.Outcome
import RiverProtocol.Lib.Checked
import RiverProtocol.Lib.Lists
import RiverProtocol.Lib.Paths
import RiverProtocol.Lib.SwapRemove
import RiverProtocol.Lib.Segments
import RiverProtocol.Lib.Balances
import RiverProtocol.Lib.Rate
import RiverProtocol.Lib.Bitmap
import RiverProtocol.Lib.Poll
import RiverProtocol.Lib.Escrow
import RiverProtocol.Lib.LittleEndian
import RiverProtocol.Lib.Abi
import RiverProtocol.Lib.Merkle
import RiverProtocol.Lib.IncrementalTree
import RiverProtocol.Lib.Sha256
import RiverProtocol.Lib.Memory
import RiverProtocol.Common
import RiverProtocol.Failure
import RiverProtocol.Allowlist
import RiverProtocol.Allowlist.Roles
import RiverProtocol.Access.Firewall
import RiverProtocol.Access.Proxy
import RiverProtocol.Access.FirewalledAllowlist
import RiverProtocol.River.Model
import RiverProtocol.River.Steps
import RiverProtocol.River.Report
import RiverProtocol.River.Invariants
import RiverProtocol.River.Progress
import RiverProtocol.River.Widths
import RiverProtocol.River.Frames
import RiverProtocol.Wlseth
import RiverProtocol.Wlseth.Transfers
import RiverProtocol.OperatorsRegistry.Model
import RiverProtocol.OperatorsRegistry.Steps
import RiverProtocol.OperatorsRegistry.Progress
import RiverProtocol.OperatorsRegistry.Changes
import RiverProtocol.OperatorsRegistry.Runs
import RiverProtocol.OperatorsRegistry.Counters
import RiverProtocol.OperatorsRegistry.Keys
import RiverProtocol.OperatorsRegistry.Audits
import RiverProtocol.OperatorsRegistry.Removal
import RiverProtocol.OperatorsRegistry.Rebroadcast
import RiverProtocol.OperatorsRegistry.KeyMemory
import RiverProtocol.RedeemManager.Model
import RiverProtocol.RedeemManager.Steps
import RiverProtocol.RedeemManager.Geometry
import RiverProtocol.RedeemManager.Solvency
import RiverProtocol.RedeemManager.Claimable
import RiverProtocol.RedeemManager.Confluence
import RiverProtocol.RedeemManager.Reach
import RiverProtocol.RedeemManager.Rounding
import RiverProtocol.RedeemManager.PayoutCap
import RiverProtocol.RedeemManager.Resolution
import RiverProtocol.RedeemManager.Migration
import RiverProtocol.RedeemManager.GenuineQueue
import RiverProtocol.Oracle.Model
import RiverProtocol.Oracle.Steps
import RiverProtocol.Oracle.Invariants
import RiverProtocol.Oracle.Agreement
import RiverProtocol.Oracle.Status
import RiverProtocol.Oracle.Commute
import RiverProtocol.System.Model
import RiverProtocol.System.Moves
import RiverProtocol.System.Report
import RiverProtocol.System.Invariants
import RiverProtocol.System.Books
import RiverProtocol.System.ExchangeRate
import RiverProtocol.System.ReportBounds
import RiverProtocol.System.Earnings
import RiverProtocol.System.Progress
import RiverProtocol.System.Widths
import RiverProtocol.System.Claims
import RiverProtocol.System.Calls
import RiverProtocol.System.OracleReports
import RiverProtocol.System.ReportingRound
import RiverProtocol.System.Exits
import RiverProtocol.System.ExitDemand
import RiverProtocol.System.Redeemers
import RiverProtocol.System.Standing
import RiverProtocol.System.Wrapper
import RiverProtocol.System.RedeemPaths
import RiverProtocol.System.Splitting
import RiverProtocol.System.Logs
import RiverProtocol.System.Reentrancy
import RiverProtocol.System.Recipients
import RiverProtocol.System.Containment
import RiverProtocol.System.ContainedExits
import RiverProtocol.System.Serialization
import RiverProtocol.System.Denied
import RiverProtocol.System.Authorization
import RiverProtocol.System.Funds
import RiverProtocol.System.DepositContract
import RiverProtocol.Tlc.Model
import RiverProtocol.Tlc.Vesting
import RiverProtocol.Tlc.Steps
import RiverProtocol.Tlc.Solvency
import RiverProtocol.Tlc.Releases
import RiverProtocol.Tlc.Unlock
import RiverProtocol.Tlc.Migration
import RiverProtocol.Tlc.UnlockMigration
import RiverProtocol.Tlc.Votes
import RiverProtocol.Tlc.Delegations
import RiverProtocol.Access.Initializable
import RiverProtocol.OperatorsRegistry.Authority
import RiverProtocol.OperatorsRegistry.FirstVersion
import RiverProtocol.System.Powers
