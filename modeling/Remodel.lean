import Remodel.Config.Write
import Remodel.Main
import Remodel.Model.Equality
import Remodel.Model.Labels
import Remodel.Proofs.Engine.Updates
import Remodel.Proofs.Record.Following
import Remodel.Proofs.Record.RoundTrip
import Remodel.Proofs.Record.Siblings
import Remodel.Proofs.Transform.Dependence
import Remodel.Record.Rebuild
import Remodel.Store
import Remodel.Transform.Connections
import Remodel.Transform.DescriptionJson
import Remodel.Proofs.Store.Revisions
import Remodel.Proofs.Store.Inserting
import Remodel.Proofs.Store.TimeTravel
import Remodel.Proofs.Engine.Agreement
import Remodel.Proofs.Record.Circles
import Remodel.Proofs.Graph.Index
import Remodel.Proofs.Transform.Skipping
import Remodel.Proofs.Record.Instances
import Remodel.Proofs.Record.Emission
import Remodel.Proofs.Record.Emitting
import Remodel.Proofs.Record.Emitted
import Remodel.Proofs.Record.Root
import Remodel.Proofs.Store.History
import Remodel.Proofs.Model.Parts
import Remodel.Proofs.Model.Comparing
import Remodel.Proofs.Model.Equivalence
import Remodel.Proofs.Model.JsonBridge
import Remodel.Proofs.Markup.Delivery
import Remodel.Proofs.Definition.Written
import Remodel.Proofs.Definition.Loading
import Remodel.Proofs.Graph.Origins
import Remodel.Proofs.Graph.AssignedIds
import Remodel.Proofs.Graph.Places
import Remodel.Proofs.Graph.FirstEdge
import Remodel.Proofs.Definition.OwnSteps
import Remodel.Proofs.Graph.ExactRemoval
import Remodel.Proofs.Transform.Routes
import Remodel.Proofs.Record.Requests
import Remodel.Proofs.Record.Sharing
import Remodel.Proofs.Model.TypedReading
import Remodel.Proofs.Record.GaplessPrefix
import Remodel.Proofs.Transform.Reordering
import Remodel.Proofs.Transform.Renaming
import Remodel.Proofs.Definition.Complete
import Remodel.Proofs.Record.Numbering
import Remodel.Proofs.Engine.Reloading
import Remodel.Proofs.Engine.InPlace
import Remodel.Proofs.Definition.BundleHash
import Remodel.Proofs.Definition.Truncation
import Remodel.Proofs.Transform.Operators
import Remodel.Proofs.Graph.Drawing
import Remodel.Proofs.Record.Serialized
import Remodel.Proofs.Model.Preorder
import Remodel.Proofs.Catalog.History
import Remodel.Proofs.Codec.StandardForm
import Remodel.Proofs.Transform.Serialized
import Remodel.Proofs.Record.FieldKeys
import Remodel.Record.Walk
import Remodel.Proofs.Record.InMemory
import Remodel.Proofs.Store.InPlace
