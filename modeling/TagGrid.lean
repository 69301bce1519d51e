import TagGrid.Grid.Draft
import TagGrid.Json.Encode
import TagGrid.Json.Stream
import TagGrid.Zinc.Writer
import TagGrid.Proofs.Double.ReadBack
import TagGrid.Proofs.Value.Degrees
import TagGrid.Proofs.Calendar.Texts
import TagGrid.Proofs.Zinc.Follow
import TagGrid.Proofs.Zinc.Quoted
import TagGrid.Proofs.Zinc.DigitLiterals
import TagGrid.Proofs.Zinc.Numbers
import TagGrid.Proofs.Zinc.Values
import TagGrid.Proofs.Zinc.WrittenText
import TagGrid.Proofs.Zinc.Tags
import TagGrid.Proofs.Zinc.Grids
import TagGrid.Proofs.Zinc.Streams
import TagGrid.Proofs.Filter.Paths
import TagGrid.Proofs.Filter.ReadBack
import TagGrid.Proofs.Filter.Precedence
import TagGrid.Proofs.Json.Strings
import TagGrid.Proofs.Json.Tags
import TagGrid.Proofs.Json.Grids
import TagGrid.Proofs.Zinc.GridPlaces
import TagGrid.Proofs.Filter.Places
import TagGrid.Proofs.Reader.Sessions
import TagGrid.Proofs.Reader.ErrorLines
import TagGrid.Proofs.Zinc.TruthWords
import TagGrid.Proofs.Reader.Independence
import TagGrid.Proofs.Json.Reserved
import TagGrid.Proofs.Reader.WellFormed
import TagGrid.Proofs.Zinc.Misread
import TagGrid.Proofs.Json.Years
import TagGrid.Proofs.Dict.Lookup
import TagGrid.Proofs.Dict.Draft
import TagGrid.Proofs.Grid.Columns
import TagGrid.Proofs.Grid.Calls
import TagGrid.Proofs.Json.Serialize
import TagGrid.Proofs.Json.OnePass
import TagGrid.Proofs.Grid.Shape
import TagGrid.Proofs.Zinc.Shapes
import TagGrid.Proofs.Zinc.Pieces
import TagGrid.Proofs.Zinc.BareMediaTypes
import TagGrid.Proofs.Zinc.Version2
import TagGrid.Proofs.Grid.Equivalence
import TagGrid.Proofs.Grid.ErrorGrid
import TagGrid.Proofs.Grid.OfDicts
import TagGrid.Proofs.Zinc.Prolonged
import TagGrid.Proofs.Filter.Evaluation
import TagGrid.Proofs.Filter.Comparisons
import TagGrid.Proofs.Filter.PathTexts
import TagGrid.Proofs.Zinc.Escapes
import TagGrid.Proofs.Zinc.NumberLiterals
import TagGrid.Proofs.Zinc.TemporalLiterals
import TagGrid.Proofs.Calendar.DaysLater
import TagGrid.Proofs.Calendar.Instants
import TagGrid.Proofs.Zinc.Lines
import TagGrid.Proofs.Zinc.CellCounts
import TagGrid.Proofs.Calendar.Order
import TagGrid.Proofs.Calendar.Shifts
import TagGrid.Proofs.Json.Payloads
import TagGrid.Proofs.Value.DegreeTexts
import TagGrid.Proofs.Zinc.Progress
import TagGrid.Proofs.Reader.Termination
