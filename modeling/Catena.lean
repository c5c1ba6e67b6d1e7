import Catena.Main
import Catena.Proofs.Identity
import Catena.Proofs.Uniform
import Catena.Proofs.Pairing
import Catena.Proofs.Ground
import Catena.Proofs.Alike
import Catena.Proofs.Parallel
import Catena.Proofs.Operation
import Catena.Proofs.Invocation
import Catena.Proofs.Unwinding
import Catena.Proofs.Steady
import Catena.Proofs.Turn
import Catena.Proofs.Balance
import Catena.Proofs.Protection
import Catena.Proofs.Interference
import Catena.Proofs.Settling
import Catena.Proofs.Freshness
import Catena.Proofs.Collecting
import Catena.Proofs.Abreast
import Catena.Proofs.Quotation
import Catena.Proofs.Removal
import Catena.Proofs.Translation
import Catena.Proofs.Mirror
import Catena.Proofs.Rendering
import Catena.Proofs.Following
import Catena.Proofs.Session
import Catena.Proofs.Composition
import Catena.Proofs.Awaiting
import Catena.Proofs.Leaving
import Catena.Proofs.Stage
import Catena.Proofs.TailCall
import Catena.Proofs.Release
import Catena.Proofs.Cancellation
import Catena.Proofs.Outstanding
import Catena.Proofs.Abandoned
import Catena.Proofs.Effects
import Catena.Proofs.Reframing
import Catena.Proofs.Moments
import Catena.Proofs.Attempt
import Catena.Proofs.Catching
import Catena.Proofs.Entering
import Catena.Proofs.Returning
import Catena.Proofs.Words
import Catena.Proofs.Spelling
import Catena.Proofs.Printed
import Catena.Proofs.Readback
import Catena.Proofs.Munch
import Catena.Proofs.Writing
import Catena.Proofs.Accessors
import Catena.Proofs.Brackets
import Catena.Proofs.Declaring
import Catena.Proofs.Naming
import Catena.Proofs.Resolution
import Catena.Proofs.Hosting
import Catena.Proofs.Copying
import Catena.Proofs.Reserved
import Catena.Proofs.Located
import Catena.Proofs.Rounds
import Catena.Proofs.Breaking
import Catena.Proofs.InPlace
import Catena.Proofs.Failing
import Catena.Proofs.Depth
import Catena.Proofs.Tidy
import Catena.Proofs.Elements
import Catena.Proofs.Taking
import Catena.Proofs.Installing
import Catena.Proofs.Tenure
import Catena.Proofs.Choosing
import Catena.Proofs.Elsewhere
import Catena.Proofs.Unrolling
import Catena.Proofs.Updating
import Catena.Proofs.Floors
import Catena.Proofs.Signatures
import Catena.Proofs.Shadowing
import Catena.Proofs.Misfit
import Catena.Proofs.Equality
import Catena.Proofs.Arithmetic
import Catena.Proofs.Ranges
