import Stacklet.Command
import Stacklet.Main
import Stacklet.Proofs.BaseDictionary
import Stacklet.Proofs.DepthCounter
import Stacklet.Proofs.EqualityBisimulation
import Stacklet.Proofs.FailedOperators
import Stacklet.Proofs.InlineBrackets
import Stacklet.Proofs.IntegerArithmetic
import Stacklet.Proofs.IntervalLaws
import Stacklet.Proofs.LineSessions
import Stacklet.Proofs.LoopRanges
import Stacklet.Proofs.MisplacedLexemes
import Stacklet.Proofs.NameRuns
import Stacklet.Proofs.NestingLimit
import Stacklet.Proofs.PrintedCode
import Stacklet.Proofs.Quitting
import Stacklet.Proofs.ResetRenewal
import Stacklet.Proofs.ScopingModes
import Stacklet.Proofs.SourceJoin
import Stacklet.Proofs.SourceTiling
import Stacklet.Proofs.StackFrame
import Stacklet.Proofs.StoredCode
import Stacklet.Proofs.ScopeRestoration
import Stacklet.Proofs.ContentComparison
import Stacklet.Proofs.DefinitionVisibility
import Stacklet.Proofs.ErrorKinds
import Stacklet.Proofs.DoubleOrder
import Stacklet.Proofs.WrittenData
import Stacklet.Proofs.NearestDouble
import Stacklet.Proofs.IntegerWidening
import Stacklet.Proofs.MixedComparison
