import KeycloakAuth.Async.Sequential
import KeycloakAuth.PasswordReset
import KeycloakAuth.BruteForce
import KeycloakAuth.Outage
import KeycloakAuth.Theft
import KeycloakAuth.SecondFactor
import KeycloakAuth.Principal
import KeycloakAuth.DisabledAccounts
import KeycloakAuth.Lockout
import KeycloakAuth.Ownership
import KeycloakAuth.LogoutRevocation
import KeycloakAuth.SessionCookie
import KeycloakAuth.Independence
import KeycloakAuth.Enumeration
import KeycloakAuth.Enrolment
import KeycloakAuth.ResetFailures
import KeycloakAuth.Noninterference
import KeycloakAuth.TokenKinds
import KeycloakAuth.StoreContract
import KeycloakAuth.DrizzleTokenStore
import KeycloakAuth.LockRemoval
import KeycloakAuth.Charges
import KeycloakAuth.EventLog
import KeycloakAuth.Cli.Convergence
import KeycloakAuth.Cli.Secrets
import KeycloakAuth.Cli.Export
import KeycloakAuth.Async.Refinement
import KeycloakAuth.Cli.RealmFile
import KeycloakAuth.Cli.Disk
import KeycloakAuth.Cli.Init
import KeycloakAuth.Csrf
import KeycloakAuth.PasswordPolicy
import KeycloakAuth.EventBus
import KeycloakAuth.CanonicalEmail
import KeycloakAuth.Expiry
import KeycloakAuth.Cleanup
import KeycloakAuth.SetupFailures
import KeycloakAuth.SetupRace
import KeycloakAuth.Registration
import KeycloakAuth.Counter
import KeycloakAuth.Deadlines
import KeycloakAuth.TypeOrmRefinement
import KeycloakAuth.AdminToken
import KeycloakAuth.StolenStore
import KeycloakAuth.Recovery
import KeycloakAuth.StoreChoice
import KeycloakAuth.Conformance
