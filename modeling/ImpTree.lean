import ImpTree.Main
import ImpTree.Tree.Build
import ImpTree.Tree.Encode
import ImpTree.Proofs.Tree.Erase
import ImpTree.Proofs.Annotations.Shape
import ImpTree.Proofs.Run.Erased
import ImpTree.Proofs.Annotations.Repeated
import ImpTree.Proofs.Annotations.Fillings
import ImpTree.Proofs.Annotations.Places
import ImpTree.Proofs.Annotations.Justified
import ImpTree.Proofs.Typing.Rules
import ImpTree.Proofs.Scope.Names
import ImpTree.Proofs.Typing.Matches
import ImpTree.Proofs.Typing.Checker
import ImpTree.Proofs.Run.Moments
import ImpTree.Proofs.Run.Outcomes
import ImpTree.Proofs.Run.Clashes
import ImpTree.Proofs.Typing.Soundness
import ImpTree.Proofs.Typing.Runs
import ImpTree.Proofs.Typing.Preservation
import ImpTree.Proofs.Tree.Parts
import ImpTree.Proofs.Typing.NullFree
import ImpTree.Proofs.Run.Raising
import ImpTree.Proofs.Typing.Failures
import ImpTree.Proofs.Session.Histories
import ImpTree.Proofs.Text.Numbers
import ImpTree.Proofs.Json.Layout
import ImpTree.Proofs.Json.ReadBack
import ImpTree.Proofs.Json.Nesting
import ImpTree.Proofs.Json.Decoded
import ImpTree.Proofs.Tree.RoundTrip
import ImpTree.Proofs.Spans.Checked
import ImpTree.Proofs.Run.Effects
import ImpTree.Proofs.Tree.Calls
import ImpTree.Proofs.Run.Paired
import ImpTree.Proofs.Run.Swapped
import ImpTree.Proofs.Run.Declared
import ImpTree.Proofs.Spans.Runs
import ImpTree.Proofs.Functions.Checks
import ImpTree.Proofs.Functions.Order
import ImpTree.Proofs.Functions.Callable
import ImpTree.Proofs.Run.Blocks
import ImpTree.Proofs.Run.Discipline
import ImpTree.Proofs.Run.Isolation
import ImpTree.Proofs.Functions.Bodies
import ImpTree.Proofs.Run.Congruence
import ImpTree.Proofs.Run.Refusals
import ImpTree.Proofs.Run.CutOff
import ImpTree.Proofs.Scope.Operations
import ImpTree.Proofs.Scope.Environments
import ImpTree.Proofs.Functions.Ending
import ImpTree.Proofs.Run.Inserted
import ImpTree.Proofs.Run.Equivalence
import ImpTree.Proofs.Run.Unrolled
import ImpTree.Proofs.Run.Switches
import ImpTree.Proofs.Run.Assignments
import ImpTree.Proofs.Scope.Insertion
import ImpTree.Proofs.Scope.Contents
import ImpTree.Proofs.Lists.Values
import ImpTree.Proofs.Lists.Runs
import ImpTree.Proofs.Lists.Accesses
import ImpTree.Proofs.Lists.Checked
import ImpTree.Proofs.Decimals.Arithmetic
import ImpTree.Proofs.Decimals.Division
import ImpTree.Proofs.Text.Numerals
import ImpTree.Proofs.Values.Ordering
import ImpTree.Proofs.Values.Powers
import ImpTree.Proofs.Types.Assignability
import ImpTree.Proofs.Types.Names
import ImpTree.Proofs.Types.Extension
import ImpTree.Proofs.Types.Registration
import ImpTree.Proofs.Binary64.Nearest
import ImpTree.Proofs.Decimals.Range
import ImpTree.Proofs.Feedback.Ranking
import ImpTree.Proofs.Binary64.ReadBack
import ImpTree.Proofs.Feedback.RoundTrip
