import ResilientDB.Proof.AtomicPointer
import ResilientDB.Proof.CommittableSeq
import ResilientDB.Proof.Config
import ResilientDB.Proof.Contract
import ResilientDB.Proof.DuplicateWindow
import ResilientDB.Proof.FileNames
import ResilientDB.Proof.FlowControl
import ResilientDB.Proof.Framework
import ResilientDB.Proof.GeoCommitment
import ResilientDB.Proof.LifeCycle
import ResilientDB.Proof.LogBytes
import ResilientDB.Proof.LogNames
import ResilientDB.Proof.NullSocket
import ResilientDB.Proof.PendingOrder
import ResilientDB.Proof.PoE
import ResilientDB.Proof.PrimaryLog
import ResilientDB.Proof.QueryAnswer
import ResilientDB.Proof.RedoVotes
import ResilientDB.Proof.Replication
import ResilientDB.Proof.RestoredView
import ResilientDB.Proof.Resume
import ResilientDB.Proof.SendChannel
import ResilientDB.Proof.SenderTable
import ResilientDB.Proof.StoredRecords
import ResilientDB.Proof.TimeoutMonitor
import ResilientDB.Proof.TimerOrder
import ResilientDB.Proof.Transport
import ResilientDB.Proof.TxnAccessor
import ResilientDB.Proof.UtxoFaults
import ResilientDB.Proof.Wakeup
