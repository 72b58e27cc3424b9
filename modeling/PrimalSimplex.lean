import PrimalSimplex.Binary
import PrimalSimplex.Binary.Layout
import PrimalSimplex.Binary.Shortest
import PrimalSimplex.CommandLine
import PrimalSimplex.CommandLine.Options
import PrimalSimplex.Constraint
import PrimalSimplex.Decimal
import PrimalSimplex.Declaration
import PrimalSimplex.Error
import PrimalSimplex.Event
import PrimalSimplex.Expression
import PrimalSimplex.Expression.Term
import PrimalSimplex.Expression.Token
import PrimalSimplex.Json
import PrimalSimplex.Json.Decode
import PrimalSimplex.Json.Numeral
import PrimalSimplex.Json.Reader
import PrimalSimplex.Main
import PrimalSimplex.Names
import PrimalSimplex.Numeral
import PrimalSimplex.Objective
import PrimalSimplex.PivotRule
import PrimalSimplex.Problem
import PrimalSimplex.Problem.Json
import PrimalSimplex.ProblemText
import PrimalSimplex.Proofs.Answer
import PrimalSimplex.Proofs.BasicSolution
import PrimalSimplex.Proofs.Bland
import PrimalSimplex.Proofs.Equivalence
import PrimalSimplex.Proofs.History
import PrimalSimplex.Proofs.Literal
import PrimalSimplex.Proofs.PivotRule
import PrimalSimplex.Proofs.RatioTest
import PrimalSimplex.Proofs.RepeatedBasis
import PrimalSimplex.Proofs.Run
import PrimalSimplex.Proofs.Shape
import PrimalSimplex.Proofs.StandardForm
import PrimalSimplex.Proofs.Token
import PrimalSimplex.Relation
import PrimalSimplex.Report
import PrimalSimplex.Row
import PrimalSimplex.Settings
import PrimalSimplex.Settings.Json
import PrimalSimplex.Solution
import PrimalSimplex.Solve
import PrimalSimplex.Solve.Json
import PrimalSimplex.StandardForm
import PrimalSimplex.Table
import PrimalSimplex.Tableau
import PrimalSimplex.Tableau.RatioTest
import PrimalSimplex.Text.Alphanumeric
import PrimalSimplex.Text.Blank
import PrimalSimplex.Text.Cased
import PrimalSimplex.Text.Column
import PrimalSimplex.Text.LowerCase
import PrimalSimplex.Text.Ranges
import PrimalSimplex.Text.Search
import PrimalSimplex.Tolerance
import PrimalSimplex.Trace
import PrimalSimplex.Trace.Json
import PrimalSimplex.Proofs.Expression
import PrimalSimplex.Proofs.Grammar
import PrimalSimplex.Proofs.Constraint
import PrimalSimplex.Proofs.Meaning
import PrimalSimplex.Proofs.Reading
import PrimalSimplex.Proofs.SignedZero
import PrimalSimplex.Proofs.Rendering
import PrimalSimplex.Proofs.Text
import PrimalSimplex.Proofs.Declaration
import PrimalSimplex.Proofs.RoundTrip
import PrimalSimplex.Proofs.Feasibility
import PrimalSimplex.Proofs.DualCertificate
import PrimalSimplex.Proofs.Limit
import PrimalSimplex.Proofs.OptimalityTest
import PrimalSimplex.Proofs.Separation
import PrimalSimplex.Proofs.FeasibleSet
import PrimalSimplex.Proofs.MinimumRatio
import PrimalSimplex.Proofs.KeptLines
import PrimalSimplex.Proofs.Orthant
import PrimalSimplex.Proofs.JsonText
import PrimalSimplex.Proofs.JsonNumber
import PrimalSimplex.Proofs.JsonRoundTrip
import PrimalSimplex.Proofs.Position
import PrimalSimplex.Proofs.ParseError
import PrimalSimplex.Proofs.Mirror
import PrimalSimplex.Proofs.ExpressionText
import PrimalSimplex.Proofs.FirstRelation
import PrimalSimplex.Proofs.FileLines
import PrimalSimplex.Proofs.LowerCase
import PrimalSimplex.Proofs.ObjectiveHeader
import PrimalSimplex.Proofs.Direction
import PrimalSimplex.Proofs.TokenCover
import PrimalSimplex.Proofs.Names
import PrimalSimplex.Proofs.Table
import PrimalSimplex.Proofs.ProblemMeaning
