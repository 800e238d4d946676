import RouteAtlas.FileTree.AsJson
import RouteAtlas.Watch.Batch
import RouteAtlas.Main
import RouteAtlas.Proofs.Naming
import RouteAtlas.Proofs.RoutesModule.Failures
import RouteAtlas.Proofs.RoutesModule.Indentation
import RouteAtlas.Proofs.RoutesModule.AsJson
import RouteAtlas.Proofs.RoutesModule.Scope
import RouteAtlas.Proofs.RouteTable.Module
import RouteAtlas.Proofs.Route.PassOrder
import RouteAtlas.Proofs.Watch.Batch
import RouteAtlas.Proofs.Watch.Incremental
import RouteAtlas.Proofs.Watch.Convergence
import RouteAtlas.Proofs.Watch.Registry
import RouteAtlas.Proofs.Watch.Rename
import RouteAtlas.Proofs.FileTree.Found
import RouteAtlas.Proofs.FileTree.Undo
import RouteAtlas.Proofs.CommandLine.Run
