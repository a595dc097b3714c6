import Relational.Main
import Relational.Storage.FileTree
import Relational.Proofs.Cells
import Relational.Proofs.JoinByPosition
import Relational.Proofs.Indexing
import Relational.Proofs.Bindings
import Relational.Proofs.Workspace
import Relational.Proofs.Atomicity
import Relational.Proofs.InPlace
import Relational.Proofs.StoredForm
import Relational.Proofs.Typing
import Relational.Proofs.Rounding
import Relational.Proofs.ShortestDecimal
import Relational.Proofs.StoredFloats
import Relational.Proofs.Tokens
import Relational.Proofs.Grammar
import Relational.Proofs.Spelling
import Relational.Proofs.StoredCells
import Relational.Proofs.Encoding
import Relational.Proofs.ReadingBack
import Relational.Proofs.RowLines
import Relational.Proofs.StoreLoad
import Relational.Proofs.Phrases
import Relational.Proofs.Recognition
import Relational.Proofs.Productions
import Relational.Proofs.Commands
import Relational.Proofs.EndOfText
import Relational.Proofs.Acceptance
import Relational.Proofs.Evaluation
import Relational.Proofs.WholeNumbers
import Relational.Proofs.IntegerOperands
import Relational.Proofs.StringOrder
import Relational.Proofs.NormalForm
import Relational.Proofs.ExpressionText
import Relational.Proofs.JoinGrouping
import Relational.Proofs.NaturalJoin
import Relational.Proofs.TableFiles
import Relational.Proofs.Requests
import Relational.Proofs.Independence
import Relational.Proofs.StarProjection
import Relational.Proofs.RowByRow
import Relational.Proofs.Materialization
import Relational.Proofs.AnswerText
import Relational.Proofs.ReadableNumbers
import Relational.Proofs.Selections
import Relational.Proofs.ChainedConditions
import Relational.Proofs.FloatJoins
import Relational.Proofs.FilteredJoins
import Relational.Proofs.ExactIntegers
import Relational.Proofs.DecimalRounding
import Relational.Proofs.WrittenTokens
import Relational.Proofs.OpenedFiles
