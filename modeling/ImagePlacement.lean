import ImagePlacement.Main
import ImagePlacement.Proofs.Cache.SingleFlight
import ImagePlacement.Proofs.Cache.Delivery
import ImagePlacement.Proofs.Cache.Retention
import ImagePlacement.Proofs.Cache.Accounting
import ImagePlacement.Proofs.Cache.Separation
import ImagePlacement.Proofs.Session.Service
import ImagePlacement.Proofs.Session.Transparency
import ImagePlacement.Proofs.Session.Snapshot
import ImagePlacement.Proofs.Png.Datastream
import ImagePlacement.Proofs.Png.Fault
import ImagePlacement.Proofs.Jpeg.Stream
import ImagePlacement.Proofs.Jpeg.Standalone
import ImagePlacement.Proofs.Signature
import ImagePlacement.Proofs.Header
import ImagePlacement.Proofs.DataUrl
import ImagePlacement.Proofs.Session.Embedding
import ImagePlacement.Proofs.Session.Limits
import ImagePlacement.Proofs.Truncation
import ImagePlacement.Proofs.Recognition
import ImagePlacement.Proofs.Session.Recovery
import ImagePlacement.Proofs.Session.Stage
import ImagePlacement.Proofs.Session.Configuration
import ImagePlacement.Proofs.CommandLine.Arguments
import ImagePlacement.Proofs.Session.Placement
import ImagePlacement.Proofs.CommandLine.Repetition
import ImagePlacement.Proofs.Json.Token
import ImagePlacement.Proofs.Json.Document
import ImagePlacement.Proofs.Settings.Document
import ImagePlacement.Proofs.Sizing.Exact
import ImagePlacement.Proofs.Sizing.NaturalFit
import ImagePlacement.Proofs.Sizing.Uniform
import ImagePlacement.Proofs.Registry
import ImagePlacement.Proofs.Estimate
import ImagePlacement.Proofs.Bounds
