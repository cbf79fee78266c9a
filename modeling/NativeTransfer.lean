import NativeTransfer.CaBundle
import NativeTransfer.Code.Pause
import NativeTransfer.Config.Discovery
import NativeTransfer.Library.Module
import NativeTransfer.Proofs.Bundles
import NativeTransfer.Proofs.Counting
import NativeTransfer.Proofs.Custody
import NativeTransfer.Proofs.EitherOrder
import NativeTransfer.Proofs.Forwarder
import NativeTransfer.Proofs.Forwarding
import NativeTransfer.Proofs.Interchange
import NativeTransfer.Proofs.Located
import NativeTransfer.Proofs.NearestFile
import NativeTransfer.Proofs.Ownership
import NativeTransfer.Proofs.PercentCoding
import NativeTransfer.Proofs.Pulling
import NativeTransfer.Proofs.Registration
import NativeTransfer.Proofs.Saving
import NativeTransfer.Proofs.SearchOrder
import NativeTransfer.Proofs.SeveralWays
import NativeTransfer.Proofs.ShortWrites
import NativeTransfer.Proofs.Unrepeated
import NativeTransfer.Script.Caller
import NativeTransfer.Script.Roster
import NativeTransfer.Script.Session
import NativeTransfer.Version
