import PrintPath.Exchange
import PrintPath.Main
import PrintPath.Proofs.Block.Grammar
import PrintPath.Proofs.Block.Layout
import PrintPath.Proofs.Block.Text
import PrintPath.Proofs.Log.Entries
import PrintPath.Proofs.Machine.Anchor
import PrintPath.Proofs.Machine.Extrusion
import PrintPath.Proofs.Machine.Modeless
import PrintPath.Proofs.Machine.Modes
import PrintPath.Proofs.Machine.Soundness
import PrintPath.Proofs.Machine.Table
import PrintPath.Proofs.Pass.Batch
import PrintPath.Proofs.Pass.Halting
import PrintPath.Proofs.Pass.Handoff
import PrintPath.Proofs.Pass.Independence
import PrintPath.Proofs.Pass.Isolation
import PrintPath.Proofs.Pass.Notes
import PrintPath.Proofs.Pass.Path
import PrintPath.Proofs.Pass.Resume
import PrintPath.Proofs.Pass.Strictness
import PrintPath.Proofs.Settings.RoundTrip
import PrintPath.Proofs.Toolpath.Bounds
import PrintPath.Proofs.Toolpath.Center
import PrintPath.Proofs.Toolpath.Conservation
import PrintPath.Proofs.Toolpath.Drawing
import PrintPath.Proofs.Toolpath.Layers
import PrintPath.Proofs.Toolpath.Layout
import PrintPath.Proofs.Toolpath.Metric
import PrintPath.Proofs.Toolpath.Report
import PrintPath.Proofs.Toolpath.Reuse
import PrintPath.Proofs.Toolpath.Totals
import PrintPath.Version
