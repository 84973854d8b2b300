import MonascaNotification.Infra.Prog
import MonascaNotification.Infra.Except
import MonascaNotification.Infra.Network
import MonascaNotification.Infra.Relay
import MonascaNotification.Python.Value
import MonascaNotification.Model.Notification
import MonascaNotification.Model.Effect
import MonascaNotification.Model.AlarmProcessor
import MonascaNotification.Model.Notifiers
import MonascaNotification.Model.Engines
import MonascaNotification.Model.System
import MonascaNotification.Spec.AlarmProcessor
import MonascaNotification.Spec.Sending
import MonascaNotification.Properties.AlarmRobustness
import MonascaNotification.Spec.Refresh
import MonascaNotification.Spec.Engines
import MonascaNotification.Spec.System
import MonascaNotification.Model.Store
import MonascaNotification.Properties.AlarmDelivery
import MonascaNotification.Properties.PeriodicChain
import MonascaNotification.Properties.SentRecord
import MonascaNotification.Infra.Conservation
import MonascaNotification.Properties.ChainCount
import MonascaNotification.Properties.RetryBound
import MonascaNotification.Properties.StaleSend
import MonascaNotification.Infra.Generator
import MonascaNotification.Model.Repositories
import MonascaNotification.Spec.Repositories
import MonascaNotification.Spec.Drivers
import MonascaNotification.Properties.Interchangeable
import MonascaNotification.Properties.Reconnect
import MonascaNotification.Infra.Concurrent
import MonascaNotification.Model.NotificationProcessor
import MonascaNotification.Properties.PluginRegistration
import MonascaNotification.Spec.TableStore
import MonascaNotification.Infra.Triple
import MonascaNotification.Python.Clock
import MonascaNotification.Properties.Queues
import MonascaNotification.Infra.Timed
import MonascaNotification.Properties.Waits
import MonascaNotification.Model.Plugins
import MonascaNotification.Python.Text
import MonascaNotification.Spec.Plugins
import MonascaNotification.Properties.AlarmSchema
import MonascaNotification.Properties.Hops
import MonascaNotification.Infra.Cache
import MonascaNotification.Model.Slack
import MonascaNotification.Properties.SlackCache
import MonascaNotification.Model.Jira
import MonascaNotification.Spec.Jira
import MonascaNotification.Properties.JiraIssues
import MonascaNotification.Properties.RegistrationOutcome
import MonascaNotification.Properties.Partition
import MonascaNotification.Properties.SlackHistory
import MonascaNotification.Model.Email
import MonascaNotification.Properties.MailRecovery
import MonascaNotification.Spec.Email
import MonascaNotification.Properties.EmailHosts
import MonascaNotification.Infra.Segments
import MonascaNotification.Python.Quote
import MonascaNotification.Python.Urlparse
import MonascaNotification.Spec.Urljoin
import MonascaNotification.Model.HipChat
import MonascaNotification.Properties.RequestTarget
import MonascaNotification.Properties.GrafanaLink
import MonascaNotification.Model.ConfTypes
import MonascaNotification.Properties.HostPort
import MonascaNotification.Model.Main
import MonascaNotification.Properties.PeriodicRouting
import MonascaNotification.Infra.Evidence
import MonascaNotification.Properties.Provenance
import MonascaNotification.Infra.Run
import MonascaNotification.Properties.Redelivery
import MonascaNotification.Infra.Serial
import MonascaNotification.Properties.Accounts
import MonascaNotification.Infra.Drain
import MonascaNotification.Properties.Drained
import MonascaNotification.Properties.RetryTraffic
import MonascaNotification.Infra.Interrupts
import MonascaNotification.Model.Supervisor
import MonascaNotification.Properties.CleanExit
import MonascaNotification.Infra.Layered
import MonascaNotification.Model.Web
import MonascaNotification.Spec.Web
import MonascaNotification.Properties.Receivers
import MonascaNotification.Properties.Snapshots
import MonascaNotification.Infra.Receipt
import MonascaNotification.Model.Receivers
import MonascaNotification.Spec.Receivers
import MonascaNotification.Properties.Settled
import MonascaNotification.Infra.Progress
import MonascaNotification.Properties.Progress
import MonascaNotification.Spec.Asked
import MonascaNotification.Spec.Encoding
