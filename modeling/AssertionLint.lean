import AssertionLint.Linter
import AssertionLint.Report
import AssertionLint.Selection.Reader
import AssertionLint.Selection.Codec
import AssertionLint.Proofs.ByteOrder
import AssertionLint.Proofs.SourceOrder
import AssertionLint.Proofs.QueueHistory
import AssertionLint.Proofs.LinterResult
import AssertionLint.Proofs.Boundaries
import AssertionLint.Proofs.LineScan
import AssertionLint.Proofs.PlaceOrder
import AssertionLint.Proofs.ReportLines
import AssertionLint.Proofs.ReadingOrder
import AssertionLint.Proofs.GrammarTokens
import AssertionLint.Proofs.SelectionLibrary
import AssertionLint.Proofs.SelectionGrammar
import AssertionLint.Proofs.SelectionRoundTrip
import AssertionLint.Proofs.ChunkedCollection
import AssertionLint.Proofs.MissingTypes
import AssertionLint.Proofs.ArenaHistory
import AssertionLint.Proofs.Footprint
import AssertionLint.Proofs.ComparedValues
import AssertionLint.Proofs.EventLog
import AssertionLint.Proofs.LongTexts
import AssertionLint.Proofs.DistinctPlaces
import AssertionLint.Proofs.TypeParameters
import AssertionLint.Proofs.Resolution
import AssertionLint.Proofs.ArrivalOrder
import AssertionLint.Proofs.SpanHull
import AssertionLint.Proofs.LeafHull
import AssertionLint.Proofs.Separators
import AssertionLint.Proofs.TypeText
import AssertionLint.Proofs.TypeLayers
import AssertionLint.Proofs.EscapeCodes
import AssertionLint.Proofs.ForeignTexts
import AssertionLint.Proofs.TableHistory
import AssertionLint.Proofs.LineStarts
import AssertionLint.Proofs.SelectionLibrary
