import Qrack.Index
import Qrack.StateVector
import Qrack.Engine
import Qrack.Apply2x2
import Qrack.UniformlyControlled
import Qrack.RunningNorm
import Qrack.KernelNorm
import Qrack.Measure
import Qrack.Dispatch
import Qrack.Circuit
import Qrack.TensorNetwork
import Qrack.Compose
import Qrack.Decompose
import Qrack.StoreShape
import Qrack.RoundTrip
import Qrack.ParityPhase
import Qrack.Probability
import Qrack.DisposePaths
import Qrack.ComposeTensor
import Qrack.ControlDecoding
import Qrack.CircuitAlgebra
import Qrack.Normalization
import Qrack.NormInvariant
import Qrack.Collapse
import Qrack.Queries
import Qrack.Compare
import Qrack.GateRefinement
