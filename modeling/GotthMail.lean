/-
The outbound policy of the mail server: submission and transport decisions,
the durable queue with its hold and release protocol, confirmed policy changes
and the backup of all of it.
-/
import GotthMail.ApprovalComparison
import GotthMail.Authorize
import GotthMail.Backup
import GotthMail.Bulk
import GotthMail.Deactivation
import GotthMail.ExtensionRollback
import GotthMail.ExtensionTested
import GotthMail.FolderNames
import GotthMail.Gate
import GotthMail.Imap
import GotthMail.ImportExact
import GotthMail.LoginRedirect
import GotthMail.MimeParts
import GotthMail.PlanBinding
import GotthMail.PostfixBoundary
import GotthMail.QueueTable
import GotthMail.ReleaseRetry
import GotthMail.Reload
import GotthMail.Restart
import GotthMail.Retention
import GotthMail.Subjects
