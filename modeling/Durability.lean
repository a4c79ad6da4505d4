import Durability.Codec.Frame
import Durability.Record.Text
import Durability.Log.Text
import Durability.Throttle.Estimator
import Durability.Throttle.Text
import Durability.LogEvent
import Durability.Options.Document
import Durability.Proofs.KeyMap
import Durability.Proofs.Log.ReservationStore
import Durability.Proofs.Log.SharedLog
import Durability.Proofs.Log.ReservationFloor
import Durability.Proofs.Log.DeletionSafety
import Durability.Proofs.Bytes.ReadBack
import Durability.Proofs.Codec.RoundTrip
import Durability.Proofs.Bytes.Stable
import Durability.Proofs.Codec.Stable
import Durability.Proofs.Codec.TornTail
import Durability.Proofs.Log.ArchiveLedger
import Durability.Proofs.Log.Readers
import Durability.Proofs.Codec.ExactSize
import Durability.Proofs.Log.DeletedSegment
import Durability.Proofs.Log.Undisturbed
import Durability.Proofs.Log.ForcedRelease
import Durability.Proofs.Codec.PrefixFree
import Durability.Proofs.Log.ReservationLedger
import Durability.Proofs.Log.SizeLedger
import Durability.Proofs.Bytes.Spelling
import Durability.Proofs.Codec.Spelling
import Durability.Proofs.Codec.Canonical
import Durability.Proofs.Codec.NormalForm
import Durability.Proofs.Log.TruncationEnd
import Durability.Proofs.Log.CleanerRest
import Durability.Proofs.Log.CallerRounds
import Durability.Proofs.Log.HostRun
import Durability.Proofs.Log.SizeWaits
import Durability.Proofs.Log.Observers
import Durability.Proofs.Throttle.WritersRun
import Durability.Proofs.Throttle.FinishedCheckpoint
import Durability.Proofs.Throttle.PolicyRun
import Durability.Proofs.Throttle.NotThrottled
import Durability.Proofs.Throttle.MarkLedger
import Durability.Proofs.Codec.FailedWrite
import Durability.Proofs.Codec.Corruption
import Durability.Proofs.Codec.Upgrade
import Durability.Proofs.Codec.LookAhead
import Durability.Proofs.Codec.LastListed
import Durability.Proofs.Log.ShortestRelease
import Durability.Proofs.Log.DeletedPrefix
import Durability.Proofs.Log.FailedDeletion
import Durability.Proofs.Throttle.ParkingRun
import Durability.Proofs.Throttle.BackoffHistory
import Durability.Proofs.Throttle.MeterRun
import Durability.Proofs.Throttle.CheckpointSpeed
import Durability.Proofs.Throttle.RecentPast
import Durability.Proofs.Throttle.CheckpointMemory
import Durability.Proofs.Throttle.PressureWarnings
import Durability.Proofs.Throttle.MeterIntervals
import Durability.Proofs.Throttle.SpeedDivision
import Durability.Proofs.Throttle.CompletedPages
