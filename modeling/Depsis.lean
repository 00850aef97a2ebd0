import Depsis.Accounts.Administrators
import Depsis.Accounts.Governance
import Depsis.Accounts.PosixNumbers
import Depsis.Acl.Covered
import Depsis.Agent.Certificates
import Depsis.Agent.DataTransfers
import Depsis.Agent.Downloads
import Depsis.Agent.EnvelopeSent
import Depsis.Agent.Exchange
import Depsis.Agent.FolderAcl
import Depsis.Agent.HandshakeGuards
import Depsis.Agent.IdentityContract
import Depsis.Agent.Piped
import Depsis.Agent.Procs
import Depsis.Agent.RequestsLine
import Depsis.Agent.Sweep
import Depsis.Apps.InstallRuns
import Depsis.Apps.Logs
import Depsis.Auth.EnrolmentProved
import Depsis.Auth.LoginThrottleKept
import Depsis.Auth.NtHashRefines
import Depsis.Auth.PasswordsFinal
import Depsis.Auth.PendingLoginsBudget
import Depsis.Auth.ResetsBudget
import Depsis.Auth.Totp
import Depsis.Backup.Dumps
import Depsis.Backup.RunSnapshotsKept
import Depsis.Backup.SchedulesSpared
import Depsis.Backup.TargetsKept
import Depsis.Common.IdempotencyOnce
import Depsis.Console.AuditRows
import Depsis.Console.Framing
import Depsis.Console.Lines
import Depsis.Console.PtyReaches
import Depsis.Desk.Mentions
import Depsis.Desk.RemindersKept
import Depsis.Desk.SubtasksLevel
import Depsis.Desk.TaskHistory
import Depsis.Disks.Diff
import Depsis.Disks.Replicate
import Depsis.Disks.Wipe
import Depsis.Events.StreamDelivers
import Depsis.Files.CompareExact
import Depsis.Files.DrainExact
import Depsis.Files.Drop
import Depsis.Files.ExifThumbnailRead
import Depsis.Files.MoveUndone
import Depsis.Files.Ranges
import Depsis.Files.ReconcileRuns
import Depsis.Files.ReservationsKept
import Depsis.Files.Search
import Depsis.Files.SliceCopy
import Depsis.Files.SubtreeExact
import Depsis.Files.Thumbnails
import Depsis.Files.TrashRetentionExact
import Depsis.Files.UploaderBounded
import Depsis.Files.UploadsExact
import Depsis.Jobs.ChainsAlive
import Depsis.Jobs.Failures
import Depsis.Permissions.DryRun
import Depsis.Remote.MembersKept
import Depsis.Shares.Access
import Depsis.Shares.OpeningKept
import Depsis.Shares.Publish
import Depsis.Teams.Faithful
import Depsis.Worker.ServiceKept
import Depsis.Worker.SmbAuditWakes
