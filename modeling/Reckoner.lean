import Reckoner.Main
import Reckoner.Proofs.Lines
import Reckoner.Proofs.Course
import Reckoner.Proofs.Precedence
import Reckoner.Proofs.Doubles
import Reckoner.Proofs.Joining
import Reckoner.Proofs.Arithmetic
import Reckoner.Proofs.Descent
import Reckoner.Proofs.Positional
import Reckoner.Proofs.RoundTrip
import Reckoner.Proofs.Segments
import Reckoner.Proofs.SumFaults
import Reckoner.Proofs.InvalidOperations
import Reckoner.Proofs.Arguments
import Reckoner.Proofs.Exponents
import Reckoner.Proofs.Listings
