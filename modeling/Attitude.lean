import Attitude.Literal
import Attitude.Call
import Attitude.Display
import Attitude.Report
import Attitude.Session.Run
import Attitude.Proofs.Exact.Series
import Attitude.Proofs.Rotation.AxisSubgroup
import Attitude.Proofs.Rotation.Adjoint
import Attitude.Proofs.Rotation.Composition
import Attitude.Proofs.Rotation.EulerQuaternion
import Attitude.Proofs.Rotation.GimbalLock
import Attitude.Proofs.Rotation.Hamilton
import Attitude.Proofs.Rotation.ParameterLogarithm
import Attitude.Proofs.Rotation.Pivot
import Attitude.Proofs.Session.Acceptance
import Attitude.Proofs.Session.Adjoint
import Attitude.Proofs.Session.Checks
import Attitude.Proofs.Session.Closeness
import Attitude.Proofs.Session.Draw
import Attitude.Proofs.Session.Evaluation
import Attitude.Proofs.Session.Exponentials
import Attitude.Proofs.Session.Failure
import Attitude.Proofs.Session.Freshness
import Attitude.Proofs.Session.Holders
import Attitude.Proofs.Session.Independence
import Attitude.Proofs.Session.Instantiation
import Attitude.Proofs.Session.Log
import Attitude.Proofs.Session.Logarithms
import Attitude.Proofs.Session.Metric
import Attitude.Proofs.Session.Ownership
import Attitude.Proofs.Session.Refinement
import Attitude.Proofs.Session.Routes
import Attitude.Proofs.Session.Shadow
import Attitude.Proofs.Session.Shapes
import Attitude.Proofs.Session.Validity
