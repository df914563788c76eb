import ShapeSchema.CommandLine.Folder
import ShapeSchema.Conformance.Accepts
import ShapeSchema.Conformance.Answer
import ShapeSchema.Conformance.Attested
import ShapeSchema.Conformance.Descent
import ShapeSchema.Conformance.Telling
import ShapeSchema.Main
import ShapeSchema.Report
import ShapeSchema.Schema.Rewriting
import ShapeSchema.Schema.Variation
import ShapeSchema.Value.Restated
import ShapeSchema.Value.Shape
import ShapeSchema.Proofs.Schema.Nodes
import ShapeSchema.Proofs.Schema.Declarations
import ShapeSchema.Proofs.Schema.Audit
import ShapeSchema.Proofs.Schema.Correspondence
import ShapeSchema.Proofs.Schema.Rewriting
import ShapeSchema.Proofs.Value.Shape
import ShapeSchema.Proofs.Value.Equality
import ShapeSchema.Proofs.Value.Restatement
import ShapeSchema.Proofs.Value.Rendering
import ShapeSchema.Proofs.Conformance.Forms
import ShapeSchema.Proofs.Conformance.Account
import ShapeSchema.Proofs.Conformance.Simulation
import ShapeSchema.Proofs.Conformance.SameRun
import ShapeSchema.Proofs.Conformance.DepthLimit
import ShapeSchema.Proofs.Conformance.Parts
import ShapeSchema.Proofs.Conformance.Acceptance
import ShapeSchema.Proofs.Conformance.Horizon
import ShapeSchema.Proofs.Conformance.Monotonicity
import ShapeSchema.Proofs.Conformance.Rearrangement
import ShapeSchema.Proofs.Conformance.Strictness
import ShapeSchema.Proofs.Conformance.OptionalFields
import ShapeSchema.Proofs.Conformance.Enumerations
import ShapeSchema.Proofs.Conformance.Localization
import ShapeSchema.Proofs.Conformance.NestedUnions
import ShapeSchema.Proofs.Conformance.Shape
import ShapeSchema.Proofs.Conformance.Logging
import ShapeSchema.Proofs.CommandLine.ExitCode
import ShapeSchema.Proofs.Conformance.FailFast
import ShapeSchema.Proofs.Conformance.StartPath
import ShapeSchema.Proofs.Location
import ShapeSchema.Proofs.Conformance.Origins
import ShapeSchema.Proofs.Conformance.MissingPositions
