import Hotstuff.BlockInsertions
import Hotstuff.BridgeLocking
import Hotstuff.CertificateVerification
import Hotstuff.CollectedReplica
import Hotstuff.CrashRecovery
import Hotstuff.DecidedLookup
import Hotstuff.EventDelivery
import Hotstuff.ForwardListGadget
import Hotstuff.InterfaceRuns
import Hotstuff.NetworkDraining
import Hotstuff.NonspeculativeVMBridge
import Hotstuff.PaceMaker
import Hotstuff.Progress
import Hotstuff.RequestTargets
import Hotstuff.SpeculationCoherence
import Hotstuff.SpeculationHead
import Hotstuff.VoteHeights
