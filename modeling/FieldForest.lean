import FieldForest.Forest.Loading
import FieldForest.Forest.RequiredPaths
import FieldForest.Main
import FieldForest.Proofs.Build.NormalForm
import FieldForest.Proofs.Forest.RoundTrip
import FieldForest.Proofs.Build.DepthLimit
import FieldForest.Forest.Declared
import FieldForest.Proofs.Declaration.Grammar
import FieldForest.Proofs.Declaration.Failures
import FieldForest.Proofs.Json.Grammar
import FieldForest.Proofs.Declaration.Calls
import FieldForest.Proofs.Declaration.DepthCheck
import FieldForest.Proofs.Forest.Views
import FieldForest.Proofs.Json.ReadBack
import FieldForest.Proofs.Forest.Documents
import FieldForest.Proofs.Forest.Reloading
import FieldForest.Proofs.Markup.Escape
import FieldForest.Proofs.Forest.Printed
import FieldForest.Proofs.Command.Agreement
import FieldForest.Proofs.Build.Sequences
import FieldForest.Proofs.Markup.Unmarked
import FieldForest.Proofs.Markup.Pieces
import FieldForest.Proofs.Markup.Kept
import FieldForest.Proofs.Forest.Labels
import FieldForest.Proofs.Command.Messages
import FieldForest.Proofs.Forest.Written
import FieldForest.Proofs.Forest.Indentation
import FieldForest.Proofs.Forest.AlwaysPresent
import FieldForest.Proofs.Forest.SavedForm
import FieldForest.Proofs.Build.Constructed
import FieldForest.Proofs.Build.Events
import FieldForest.Proofs.Declaration.Files
import FieldForest.Proofs.Command.Output
import FieldForest.Proofs.Command.Limits
import FieldForest.Proofs.Forest.Lines
