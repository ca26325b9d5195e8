import TableQuery.CommandLine.Run
import TableQuery.Main
import TableQuery.Session
import TableQuery.Proofs.SetGrammar
import TableQuery.Proofs.SetRefusal
import TableQuery.Proofs.TableRows
import TableQuery.Proofs.ConditionReading
import TableQuery.Proofs.ConditionFormula
import TableQuery.Proofs.TextSpelling
import TableQuery.Proofs.QuotedPredicate
import TableQuery.Proofs.ConditionForm
import TableQuery.Proofs.EmptyGroup
import TableQuery.Proofs.LineCells
import TableQuery.Proofs.FileLines
import TableQuery.Proofs.SelectedRows
import TableQuery.Proofs.RequestReport
import TableQuery.Proofs.ConditionParts
import TableQuery.Proofs.ConditionJoin
import TableQuery.Proofs.TableLayout
import TableQuery.Proofs.CursorReuse
import TableQuery.Proofs.SessionHistory
import TableQuery.Proofs.RenderedWords
import TableQuery.Proofs.EncodedText
import TableQuery.Proofs.WrittenCells
import TableQuery.Proofs.WrittenTable
import TableQuery.Proofs.Rounding
import TableQuery.Proofs.NumeralOrder
import TableQuery.Proofs.MappedSets
import TableQuery.Proofs.RowByRow
import TableQuery.Proofs.AppendedRows
import TableQuery.Proofs.LeadingOptions
import TableQuery.Proofs.ReportSettings
import TableQuery.Proofs.UnquotedRows
import TableQuery.Proofs.TokenTiling
import TableQuery.Proofs.OtherSpace
import TableQuery.Proofs.EscapedText
import TableQuery.Proofs.NumberedWords
import TableQuery.Proofs.ClauseWords
import TableQuery.Proofs.WrittenQuery
import TableQuery.Proofs.NumberOrder
import TableQuery.Proofs.BareComparisons
import TableQuery.Proofs.GroupedValue
import TableQuery.Proofs.RelatedSets
import TableQuery.Proofs.NamedColumns
import TableQuery.Proofs.LineEnds
import TableQuery.Proofs.CutLines
import TableQuery.Proofs.CursorLife
import TableQuery.Proofs.ResultLists
import TableQuery.Proofs.ShownTokens
