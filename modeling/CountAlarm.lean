import CountAlarm.Pipeline.Snapshot
import CountAlarm.Setup.Load
import CountAlarm.Proofs.Alerting.CheckedRuns
import CountAlarm.Proofs.Alerting.Exactness
import CountAlarm.Proofs.Alerting.Isolation
import CountAlarm.Proofs.Alerting.Sweep
import CountAlarm.Proofs.Alerting.Unanimity
import CountAlarm.Proofs.Counting.BucketMap
import CountAlarm.Proofs.Counting.Forgetting
import CountAlarm.Proofs.Counting.Lateness
import CountAlarm.Proofs.Counting.ReadingAhead
import CountAlarm.Proofs.Delivery.Outlets
import CountAlarm.Proofs.Documents.ConfigTexts
import CountAlarm.Proofs.Documents.DataTypeTexts
import CountAlarm.Proofs.Event.CanonicalKeys
import CountAlarm.Proofs.Pipeline.AlertIds
import CountAlarm.Proofs.Pipeline.Independence
import CountAlarm.Proofs.Pipeline.Replacement
import CountAlarm.Proofs.Pipeline.Routing
import CountAlarm.Proofs.Pipeline.SinkFailures
import CountAlarm.Proofs.Pipeline.Snapshots
import CountAlarm.Proofs.Pipeline.Stepwise
import CountAlarm.Proofs.Pipeline.Totals
import CountAlarm.Proofs.Routing.Partition
