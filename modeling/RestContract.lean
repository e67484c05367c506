import RestContract.Main
import RestContract.Samples
import RestContract.Proofs.ArtifactNames
import RestContract.Proofs.PathTree
import RestContract.Proofs.PathInsertion
import RestContract.Proofs.AssemblySteps
import RestContract.Proofs.EndpointSteps
import RestContract.Proofs.AssembledTree
import RestContract.Proofs.References
import RestContract.Proofs.Authorization
import RestContract.Proofs.RouteOrder
import RestContract.Proofs.BuildGrowth
import RestContract.Proofs.LaterRoutes
import RestContract.Proofs.InsertedPrefixes
import RestContract.Proofs.GrownTree
import RestContract.Proofs.Overrides
import RestContract.Proofs.UnsupportedNodes
import RestContract.Proofs.Rewrites
import RestContract.Proofs.EmptyAlternatives
import RestContract.Proofs.StableDocuments
import RestContract.Proofs.Parameters
import RestContract.Proofs.SharedNames
import RestContract.Proofs.RequestTemplates
import RestContract.Proofs.Spelling
import RestContract.Proofs.UnknownKeys
import RestContract.Proofs.Layers
import RestContract.Proofs.ConsistentDocuments
import RestContract.Proofs.EqualSchemas
import RestContract.Proofs.SchemaLayouts
import RestContract.Proofs.Measurements
import RestContract.Proofs.Preflights
import RestContract.Proofs.ReusedIntegrations
import RestContract.Proofs.RecognisedKeys
import RestContract.Proofs.JoinedPaths
import RestContract.Proofs.WholeNumberKeys
import RestContract.Proofs.ReportedShapes
import RestContract.Proofs.Traversals
