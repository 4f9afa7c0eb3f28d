import BraceTemplate.CInterface
import BraceTemplate.Main
import BraceTemplate.Proofs.Agreement
import BraceTemplate.Proofs.Refusal
import BraceTemplate.Sink.Charwise
import BraceTemplate.Sink.Operation
import BraceTemplate.Proofs.Printing
import BraceTemplate.Proofs.Threshold
import BraceTemplate.Proofs.Concatenation
import BraceTemplate.Proofs.CorrectPrefix
import BraceTemplate.Proofs.Filling
import BraceTemplate.Proofs.Recovery
import BraceTemplate.Proofs.Cover
import BraceTemplate.Proofs.Tiling
import BraceTemplate.Proofs.Location
import BraceTemplate.Proofs.CallerMemory
import BraceTemplate.Proofs.FailedClause
import BraceTemplate.Proofs.Kept
import BraceTemplate.Proofs.Lossless
import BraceTemplate.Proofs.Envelope
import BraceTemplate.Proofs.Offsets
import BraceTemplate.Proofs.Promises
import BraceTemplate.Proofs.Respelling
import BraceTemplate.Proofs.Interfaces
import BraceTemplate.Proofs.ExpansionBound
import BraceTemplate.Proofs.Simulation
import BraceTemplate.Proofs.Frame
import BraceTemplate.Proofs.Charwise
import BraceTemplate.Proofs.PercentSigns
import BraceTemplate.Proofs.Exchange
import BraceTemplate.Proofs.Losses
import BraceTemplate.Proofs.Diagnosis
import BraceTemplate.Proofs.Numerals
