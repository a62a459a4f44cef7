import FlightPlan.Main
import FlightPlan.Proofs.Scalar.Comparison
import FlightPlan.Proofs.Binary64.Comparison
import FlightPlan.Proofs.Tier
import FlightPlan.Proofs.Legs.Refresh
import FlightPlan.Proofs.Legs.Pointwise
import FlightPlan.Proofs.Plan.Edit
import FlightPlan.Proofs.Plan.Sound
import FlightPlan.Proofs.Plan.Itinerary
import FlightPlan.Proofs.Plan.Speeds
import FlightPlan.Proofs.Document.RoundTrip
import FlightPlan.Proofs.Program.Validate
import FlightPlan.Proofs.Binary64.Range
import FlightPlan.Proofs.Speed
import FlightPlan.Proofs.Command.Recalc
import FlightPlan.Proofs.Plan.Undo
import FlightPlan.Proofs.Plan.Commute
import FlightPlan.Proofs.Plan.Preview
import FlightPlan.Proofs.Command.Generate
import FlightPlan.Proofs.Legs.Untouched
import FlightPlan.Proofs.Report.Sequence
import FlightPlan.Proofs.Report.Clearance
import FlightPlan.Proofs.Plan.FirstFault
import FlightPlan.Proofs.Speed.Duration
import FlightPlan.Proofs.Heading.Normal
import FlightPlan.Proofs.Terrain.Stored
import FlightPlan.Proofs.Scalar.Exact
import FlightPlan.Proofs.Terrain.Bilinear
import FlightPlan.Proofs.Summary
import FlightPlan.Proofs.Binary64.Growth
import FlightPlan.Proofs.Scatter.Loop
import FlightPlan.Proofs.Scatter
import FlightPlan.Proofs.Scatter.Cruise
import FlightPlan.Proofs.Document.Layout
import FlightPlan.Proofs.Document.Trajectory
import FlightPlan.Proofs.Settings
import FlightPlan.Proofs.Binary64.Sign
import FlightPlan.Proofs.Sphere
import FlightPlan.Proofs.PositionText
