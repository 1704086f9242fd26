import PolyDeriv.Main
import PolyDeriv.Poly.Denotation
import PolyDeriv.Proofs.Blame
import PolyDeriv.Proofs.Cancellation
import PolyDeriv.Proofs.Combination
import PolyDeriv.Proofs.Commutation
import PolyDeriv.Proofs.Distributed
import PolyDeriv.Proofs.Integers
import PolyDeriv.Proofs.LeftmostFault
import PolyDeriv.Proofs.LineStructure
import PolyDeriv.Proofs.MatchingPairs
import PolyDeriv.Proofs.MaximalMunch
import PolyDeriv.Proofs.NestingDepth
import PolyDeriv.Proofs.NormalForm
import PolyDeriv.Proofs.Overflow
import PolyDeriv.Proofs.Painting
import PolyDeriv.Proofs.Pipeline
import PolyDeriv.Proofs.Rearrangement
import PolyDeriv.Proofs.RepeatedDerivative
import PolyDeriv.Proofs.RoundTrip
import PolyDeriv.Proofs.Serving
import PolyDeriv.Proofs.Summands
import PolyDeriv.Proofs.TokenClasses
import PolyDeriv.Proofs.WellFormedness
import PolyDeriv.Proofs.Zeros
