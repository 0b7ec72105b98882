import RangeTuner.Command.FileTree
import RangeTuner.Main
import RangeTuner.Proofs.Decimal.Comparison
import RangeTuner.Proofs.Exchange.SavedBank
import RangeTuner.Proofs.Learning.CheckedFits
import RangeTuner.Proofs.Learning.CheckedTraining
import RangeTuner.Proofs.Provenance.Agreement
import RangeTuner.Proofs.Provenance.Reannotation
import RangeTuner.Proofs.Rewrite.BlockStructure
import RangeTuner.Proofs.Rewrite.ByteTypes
import RangeTuner.Proofs.Rewrite.CapturedNames
import RangeTuner.Proofs.Rewrite.CoordinateGate
import RangeTuner.Proofs.Rewrite.ElseBranches
import RangeTuner.Proofs.Rewrite.KeptBodies
import RangeTuner.Proofs.Rewrite.LiveConstants
import RangeTuner.Proofs.Rewrite.RepeatedPlanar
import RangeTuner.Proofs.Rewrite.RepeatedTemplates
import RangeTuner.Proofs.Rewrite.ShelteredGuards
import RangeTuner.Proofs.Session.Reentry
import RangeTuner.Proofs.Session.SilentSpecification
import RangeTuner.Proofs.Source.Comments
import RangeTuner.Proofs.Spec.LastDirective
import RangeTuner.Proofs.Source.Divisions
import RangeTuner.Proofs.Decimal.Spelling
import RangeTuner.Proofs.Provenance.LiveIncludes
import RangeTuner.Proofs.Spec.Grammar
import RangeTuner.Proofs.Spec.TrailingComments
import RangeTuner.Proofs.Learning.Routing
import RangeTuner.Proofs.Learning.BestCut
import RangeTuner.Proofs.Learning.Mislabelling
import RangeTuner.Proofs.Exchange.LoadedBank
import RangeTuner.Proofs.Learning.Streams
import RangeTuner.Proofs.Decimal.Rounding
import RangeTuner.Proofs.Learning.ForestShares
import RangeTuner.Proofs.Learning.HoldoutSplit
import RangeTuner.Proofs.Learning.SyntheticRows
import RangeTuner.Proofs.Digest.ByteChanges
import RangeTuner.Proofs.Gate.Tallies
import RangeTuner.Proofs.Text.Nesting
import RangeTuner.Proofs.Decimal.CorrectRounding
import RangeTuner.Proofs.Decimal.NearestDouble
import RangeTuner.Proofs.Decimal.Shortest
import RangeTuner.Proofs.Json.Double
import RangeTuner.Proofs.Json.Dropping
import RangeTuner.Proofs.Exchange.Overlay
import RangeTuner.Proofs.Exchange.PartialSettings
import RangeTuner.Proofs.Learning.LiveGenerators
import RangeTuner.Proofs.Text.MatchingBraces
