import QueryPipeline.Main
import QueryPipeline.Proofs.Findings
import QueryPipeline.Proofs.Grammar
import QueryPipeline.Proofs.RoundTrip
import QueryPipeline.Proofs.DataFlow
import QueryPipeline.Proofs.Constants
import QueryPipeline.Proofs.Partition
import QueryPipeline.Proofs.Diagnosis
import QueryPipeline.Proofs.LayoutIndependence
import QueryPipeline.Proofs.Recovery
import QueryPipeline.Proofs.LexicalGrammar
import QueryPipeline.Proofs.MaximalMunch
import QueryPipeline.Proofs.FaultReport
import QueryPipeline.Proofs.StageOrder
import QueryPipeline.Proofs.ReportLines
import QueryPipeline.Proofs.GoldenFiles
import QueryPipeline.Proofs.Concatenation
import QueryPipeline.Proofs.ReportReading
import QueryPipeline.Proofs.DescriptorRoundTrip
import QueryPipeline.Proofs.FileAccess
import QueryPipeline.Proofs.ByteOrder
import QueryPipeline.Proofs.BatchRuns
import QueryPipeline.Proofs.ResultFiles
import QueryPipeline.Proofs.OperandExpressions
import QueryPipeline.Proofs.Declarations
import QueryPipeline.Proofs.StatelessScript
import QueryPipeline.Proofs.BareOperands
import QueryPipeline.Proofs.SelectedColumns
import QueryPipeline.Proofs.SourceLines
import QueryPipeline.Proofs.TokenSpacing
import QueryPipeline.Proofs.PathSegments
import QueryPipeline.Proofs.DescriptorTables
import QueryPipeline.Proofs.BatchFootprint
import QueryPipeline.Proofs.JobEffects
import QueryPipeline.Proofs.DescentEnds
import QueryPipeline.Proofs.FileChanges
