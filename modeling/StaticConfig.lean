import StaticConfig.Builtin.Library
import StaticConfig.Loader.Values
import StaticConfig.Proofs.Builtin.Cuts
import StaticConfig.Proofs.Builtin.Gathered
import StaticConfig.Proofs.Builtin.Joined
import StaticConfig.Proofs.Builtin.Verbs
import StaticConfig.Proofs.Comparison.Sets
import StaticConfig.Proofs.Conversion.Blind
import StaticConfig.Proofs.Conversion.Converts
import StaticConfig.Proofs.Conversion.Exact
import StaticConfig.Proofs.Conversion.Idempotent
import StaticConfig.Proofs.Conversion.MarkedOnce
import StaticConfig.Proofs.Conversion.Markers
import StaticConfig.Proofs.Conversion.Parts
import StaticConfig.Proofs.Conversion.Target
import StaticConfig.Proofs.Declaring.Firsts
import StaticConfig.Proofs.Evaluation.Built
import StaticConfig.Proofs.Evaluation.Comprehensions
import StaticConfig.Proofs.Evaluation.Literals
import StaticConfig.Proofs.Evaluation.Located
import StaticConfig.Proofs.Evaluation.Preserves
import StaticConfig.Proofs.Evaluation.Unplaced
import StaticConfig.Proofs.Expansion.Agreement
import StaticConfig.Proofs.Expansion.Copies
import StaticConfig.Proofs.Expansion.Expanded
import StaticConfig.Proofs.Filling.Applied
import StaticConfig.Proofs.Filling.Completes
import StaticConfig.Proofs.Filling.Covers
import StaticConfig.Proofs.Filling.Denotes
import StaticConfig.Proofs.Filling.Everywhere
import StaticConfig.Proofs.Knowledge.Counting
import StaticConfig.Proofs.Knowledge.Instances
import StaticConfig.Proofs.Knowledge.Kept
import StaticConfig.Proofs.Knowledge.Monotone
import StaticConfig.Proofs.Loading.Definitions
import StaticConfig.Proofs.Numbers.Arithmetic
import StaticConfig.Proofs.Numbers.Rounding
import StaticConfig.Proofs.Numbers.Written
import StaticConfig.Proofs.Reading.Accepted
import StaticConfig.Proofs.Reading.Along
import StaticConfig.Proofs.Reading.Bounds
import StaticConfig.Proofs.Reading.Chunks
import StaticConfig.Proofs.Reading.Consumed
import StaticConfig.Proofs.Reading.Expressions
import StaticConfig.Proofs.Reading.Interpolated
import StaticConfig.Proofs.Reading.Layout
import StaticConfig.Proofs.Reading.Lossless
import StaticConfig.Proofs.Reading.Marked
import StaticConfig.Proofs.Reading.Nested
import StaticConfig.Proofs.Reading.Newlines
import StaticConfig.Proofs.Reading.Offsets
import StaticConfig.Proofs.Reading.Outlines
import StaticConfig.Proofs.Reading.Parsed
import StaticConfig.Proofs.Reading.Places
import StaticConfig.Proofs.Reading.Positions
import StaticConfig.Proofs.Reading.Stands
import StaticConfig.Proofs.Reading.Tails
import StaticConfig.Proofs.Reading.Tandem
import StaticConfig.Proofs.Resolution.Arguments
import StaticConfig.Proofs.Resolution.Cycles
import StaticConfig.Proofs.Resolution.Inputs
import StaticConfig.Proofs.Resolution.Instances
import StaticConfig.Proofs.Resolution.Runners
import StaticConfig.Proofs.Resolution.Transparent
import StaticConfig.Proofs.RoundTrip.Files
import StaticConfig.Proofs.Scoping.Complete
import StaticConfig.Proofs.Scoping.Subjects
import StaticConfig.Proofs.Scoping.Wanted
import StaticConfig.Proofs.Sensitivity.Details
import StaticConfig.Proofs.Sensitivity.Display
import StaticConfig.Proofs.Sensitivity.Noninterference
import StaticConfig.Proofs.Sensitivity.Passed
import StaticConfig.Proofs.Sensitivity.Surroundings
import StaticConfig.Proofs.Termination.Ends
import StaticConfig.Proofs.Termination.Loading
import StaticConfig.Proofs.Unification.Convertible
import StaticConfig.Proofs.Unification.Reach
