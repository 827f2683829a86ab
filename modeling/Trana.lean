import Trana.Lib.ByteCodec
import Trana.Lib.Borsh
import Trana.Lib.Text
import Trana.Lib.Sha256
import Trana.Lib.Base58
import Trana.Lib.Json
import Trana.Lib.Till
import Trana.Lib.DataView
import Trana.Lib.Exec
import Trana.Lib.Run
import Trana.Lib.Bank
import Trana.Lib.Owned
import Trana.Lib.Payments
import Trana.Lib.Keyring
import Trana.Lib.Search
import Trana.Lib.Deferred
import Trana.Lib.Bits
import Trana.Lib.Base64url
import Trana.Lib.BigEndian
import Trana.Lib.Der
import Trana.Lib.Loops
import Trana.Lib.JsNumber
import Trana.Lib.Sha256Indexed
import Trana.Solana.Types
import Trana.Solana.Secp256r1
import Trana.Solana.Ledger
import Trana.Solana.Anchor
import Trana.Solana.Settlement
import Trana.Solana.CallTree
import Trana.Solana.Loader
import Trana.Guard.State
import Trana.Guard.Verify
import Trana.Guard.VerifySpec
import Trana.Guard.Decoder
import Trana.Guard.Program
import Trana.Guard.ProgramSpec
import Trana.Guard.Run
import Trana.Guard.Audit
import Trana.Guard.Fees
import Trana.Guard.Completeness
import Trana.Guard.Image
import Trana.Guard.Calls
import Trana.Guard.Foreign
import Trana.Guard.Logs
import Trana.Guard.Accumulator
import Trana.Vault.State
import Trana.Vault.Program
import Trana.Vault.ProgramSpec
import Trana.Vault.Completeness
import Trana.Vault.Run
import Trana.Vault.Settlement
import Trana.Vault.Canonical
import Trana.Counter.Program
import Trana.Counter.Run
import Trana.Counter.App
import Trana.Authority.State
import Trana.Authority.Program
import Trana.Authority.ProgramSpec
import Trana.Authority.Run
import Trana.Sdk.Intent
import Trana.Sdk.ProofIx
import Trana.Sdk.Transaction
import Trana.Sdk.Client
import Trana.Sdk.EndToEnd
import Trana.Sdk.Detector
import Trana.Sdk.Provider
import Trana.Sdk.Session
import Trana.Sdk.Registry
import Trana.Sdk.SendLoop
import Trana.Sdk.Buffers
import Trana.Sdk.Webauthn
import Trana.Sdk.Sha256
import Trana.Sdk.Testing
import Trana.Landing.Registry
import Trana.Landing.Vault
import Trana.Security.Soundness
import Trana.Security.LimitPolicy
import Trana.Security.Binding
import Trana.Security.ProofTarget
import Trana.Security.Replay
import Trana.Security.TwoFactor
import Trana.Security.RegistrySize
import Trana.Security.Revocation
import Trana.Security.EnforceBytes
import Trana.Security.Isolation
import Trana.Security.Usability
import Trana.Security.WireFormat
import Trana.Security.Withdrawals
import Trana.Security.Counter
import Trana.Security.DemoReads
import Trana.Security.Clusters
import Trana.Security.Genuine
import Trana.Security.Solvency
import Trana.Security.Drain
import Trana.Security.UpgradeAuthority
import Trana.Security.AuthorityRecords
import Trana.Security.KeyScripts
import Trana.Security.Registration
import Trana.Security.Detection
import Trana.Security.Approvals
import Trana.Security.IntentHash
import Trana.Security.Introspection
import Trana.Security.ClientData
import Trana.Security.RegistryFits
import Trana.Security.Cooldown
import Trana.Security.AuditFlag
import Trana.Security.LandingDecoders
import Trana.Security.OldLayout
import Trana.Security.Insertion
import Trana.Security.Base64url
import Trana.Security.LowS
import Trana.Security.PublicKey
import Trana.Security.PureSha256
import Trana.Security.ExactBalances
import Trana.Security.AuditTrail
import Trana.Security.FeeConfig
import Trana.Security.Books
