import ModuleGraph.Config.Reader
import ModuleGraph.Files
import ModuleGraph.Json.Printer
import ModuleGraph.Json.Reader
import ModuleGraph.Proofs.Agreement
import ModuleGraph.Proofs.AllowedSchemes
import ModuleGraph.Proofs.CacheHistories
import ModuleGraph.Proofs.CircularStars
import ModuleGraph.Proofs.CleanRuns
import ModuleGraph.Proofs.Contents
import ModuleGraph.Proofs.DefaultExports
import ModuleGraph.Proofs.DeferredNames
import ModuleGraph.Proofs.Doubles
import ModuleGraph.Proofs.Entries
import ModuleGraph.Proofs.Failures
import ModuleGraph.Proofs.FirstSuccess
import ModuleGraph.Proofs.GlobalExposure
import ModuleGraph.Proofs.ImportChains
import ModuleGraph.Proofs.ImportLocations
import ModuleGraph.Proofs.Independence
import ModuleGraph.Proofs.Joining
import ModuleGraph.Proofs.Leftovers
import ModuleGraph.Proofs.LinkSteps
import ModuleGraph.Proofs.MissingImports
import ModuleGraph.Proofs.NameDeliveries
import ModuleGraph.Proofs.Once
import ModuleGraph.Proofs.Openings
import ModuleGraph.Proofs.Origins
import ModuleGraph.Proofs.PlainSearch
import ModuleGraph.Proofs.Projections
import ModuleGraph.Proofs.PropertyHistories
import ModuleGraph.Proofs.Refusals
import ModuleGraph.Proofs.RequireChains
import ModuleGraph.Proofs.RoundTrips
import ModuleGraph.Proofs.StarReadings
import ModuleGraph.Proofs.TopLevelAwait
import ModuleGraph.Proofs.WrapperOutcomes
import ModuleGraph.Scripted.Session
import ModuleGraph.Scripted.Trial
