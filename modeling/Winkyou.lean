import Winkyou.Proof.Ledger.Circuit
import Winkyou.Proof.Ledger.Windows
import Winkyou.Proof.Ledger.Overcommit
import Winkyou.Proof.Ledger.Crash
import Winkyou.Proof.Selection.Honest
import Winkyou.Proof.Mesh.Flood
import Winkyou.Proof.Mesh.Node
import Winkyou.Proof.Governor.FailClosed
import Winkyou.Proof.Session.Binding
import Winkyou.Proof.Governor.PairingTerminal
import Winkyou.Proof.HardNat.Build
import Winkyou.Proof.Routed.OpenResult
import Winkyou.Proof.Session.Messages
import Winkyou.Proof.Framed.Alignment
import Winkyou.Proof.Selfhosted.Schedule
import Winkyou.Proof.Client.Inband
import Winkyou.Proof.Client.Identity
import Winkyou.Proof.HardNat.Shuffle
import Winkyou.Proof.Client.Autonomous
import Winkyou.Proof.Client.SnapshotWriter
import Winkyou.Proof.Session.Standby
import Winkyou.Proof.HardNat.Prediction
import Winkyou.Proof.Solver.SignalRelay
import Winkyou.Proof.Solver.Observations
