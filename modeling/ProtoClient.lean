import ProtoClient.Descriptor.OfSchema
import ProtoClient.Main
import ProtoClient.Schema.Json
import ProtoClient.Workspace
import ProtoClient.Proofs.BoundNames
import ProtoClient.Proofs.ClosedSystem
import ProtoClient.Proofs.Descriptor.Concatenation
import ProtoClient.Proofs.Descriptor.RoundTrip
import ProtoClient.Proofs.DistinctOutputs
import ProtoClient.Proofs.FetchHistory
import ProtoClient.Proofs.OrderIndependence
import ProtoClient.Proofs.UnrelatedFile
import ProtoClient.Proofs.TypeScript.TopLevel
import ProtoClient.Proofs.Descriptor.Undeclared
import ProtoClient.Proofs.Descriptor.Truncation
import ProtoClient.Proofs.Indexing
import ProtoClient.Proofs.Expansion
import ProtoClient.Proofs.FirstFault
import ProtoClient.Proofs.RunOutcome
import ProtoClient.Proofs.ShownDeclarations
import ProtoClient.Proofs.Descriptor.Describing
import ProtoClient.Proofs.TypeScript.Url
import ProtoClient.Proofs.PathWalk
import ProtoClient.Proofs.Specifier
import ProtoClient.Proofs.PropertyPath
import ProtoClient.Proofs.MapDepth
import ProtoClient.Proofs.Imports
import ProtoClient.Proofs.ChoiceCollection
import ProtoClient.Proofs.TypeScript.Body
import ProtoClient.Proofs.Descriptor.Rejection
import ProtoClient.Proofs.Parameters
import ProtoClient.Proofs.Response
import ProtoClient.Proofs.CamelCase
import ProtoClient.Proofs.TypeScript.Names
import ProtoClient.Proofs.Json.RoundTrip
