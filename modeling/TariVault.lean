import TariVault.Data.Base64
import TariVault.Data.ByteOrder
import TariVault.Data.Calendar
import TariVault.Data.DateTime
import TariVault.Data.Decimal
import TariVault.Data.FixedBytes
import TariVault.Data.Json
import TariVault.Data.JsonDepth
import TariVault.Data.JsonNumber
import TariVault.Data.JsonPretty
import TariVault.Data.JsonText
import TariVault.Data.JsonTree
import TariVault.Data.JsonValue
import TariVault.Data.JsonWidth
import TariVault.Data.Mirror
import TariVault.Data.RawValue
import TariVault.Data.Rfc3339
import TariVault.Data.Uuid
import TariVault.Domain.ClaimId
import TariVault.Domain.Record
import TariVault.Error
import TariVault.Process.Lifecycle
import TariVault.Process.Main
import TariVault.Program.Basic
import TariVault.Program.Cancellation
import TariVault.Program.Clocked
import TariVault.Program.Cost
import TariVault.Program.Discipline
import TariVault.Program.Guarded
import TariVault.Program.Interleaving
import TariVault.Program.Interpretation
import TariVault.Program.Landing
import TariVault.Program.Locking
import TariVault.Program.Phases
import TariVault.Program.Tally
import TariVault.Program.Ticks
import TariVault.Program.Trace
import TariVault.Rpc.Auth
import TariVault.Rpc.Consumption
import TariVault.Rpc.Server
import TariVault.Rpc.Transport
import TariVault.Rpc.Verbatim
import TariVault.Storage.Acknowledged
import TariVault.Storage.Backend
import TariVault.Storage.Chronology
import TariVault.Storage.Contents
import TariVault.Storage.Crash
import TariVault.Storage.DiskFormat
import TariVault.Storage.Failure
import TariVault.Storage.FileHistories
import TariVault.Storage.FileRefinement
import TariVault.Storage.FileSystem
import TariVault.Storage.LocalFile
import TariVault.Storage.Opening
import TariVault.Storage.Sequence
import TariVault.Storage.Serialised
import TariVault.Storage.Sqlite
import TariVault.Storage.Transaction
import TariVault.Symbolic.Derivation
import TariVault.Symbolic.Discretion
import TariVault.Symbolic.Observer
import TariVault.Symbolic.Reading
import TariVault.Symbolic.Secrecy
import TariVault.Symbolic.Vault
import TariVault.Vault.Accounting
import TariVault.Vault.Alone
import TariVault.Vault.AloneOverFiles
import TariVault.Vault.AloneOverSqlite
import TariVault.Vault.BackendAgreement
import TariVault.Vault.Calls
import TariVault.Vault.CleanupShutdown
import TariVault.Vault.CleanupStops
import TariVault.Vault.CleanupTask
import TariVault.Vault.Concurrent
import TariVault.Vault.Conservation
import TariVault.Vault.Expiry
import TariVault.Vault.Forgery
import TariVault.Vault.Histories
import TariVault.Vault.Lifetime
import TariVault.Vault.LockStages
import TariVault.Vault.Lowering
import TariVault.Vault.Mirrored
import TariVault.Vault.OverFiles
import TariVault.Vault.OverSqlite
import TariVault.Vault.Processes
import TariVault.Vault.Progress
import TariVault.Vault.ProofVault
import TariVault.Vault.Retention
import TariVault.Vault.RoundTrip
import TariVault.Vault.Runtime
import TariVault.Vault.Schedule
import TariVault.Vault.Sequential
import TariVault.Vault.SharedDatabase
import TariVault.Vault.SharedFile
import TariVault.Vault.SingleUse
import TariVault.Vault.StepCosts
import TariVault.Vault.Sweeps
import TariVault.Vault.Tampering
import TariVault.Vault.Turns
