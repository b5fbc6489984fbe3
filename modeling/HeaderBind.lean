import HeaderBind.Draft.Command
import HeaderBind.Draft.Replay
import HeaderBind.Main
import HeaderBind.Proofs.Draft.Names
import HeaderBind.Proofs.Layout.Format
import HeaderBind.Proofs.Module.Injective
import HeaderBind.Proofs.Probe.RoundTrip
import HeaderBind.Proofs.Module.Agreement
import HeaderBind.Proofs.Config.Check
import HeaderBind.Proofs.Draft.Clash
import HeaderBind.Proofs.Draft.Replay
import HeaderBind.Proofs.Module.Unbroken
import HeaderBind.Proofs.Effect
import HeaderBind.Proofs.Draft.Book
import HeaderBind.Proofs.Artifact
import HeaderBind.Proofs.Draft.Section
import HeaderBind.Proofs.FileTree.Basic
import HeaderBind.Proofs.CommandLine.Generate
import HeaderBind.Proofs.CommandLine.Preview
import HeaderBind.Proofs.Draft.Export
import HeaderBind.Proofs.Draft.Refusal
import HeaderBind.Proofs.Rerun
import HeaderBind.Proofs.Module.ReadBack
import HeaderBind.Proofs.CommandLine.Settled
import HeaderBind.Proofs.Escape.Files
import HeaderBind.Proofs.Escape.Target
import HeaderBind.Proofs.CommandLine.Report
import HeaderBind.Proofs.Probe.Seam
import HeaderBind.Proofs.Layout.Representable
import HeaderBind.Proofs.Text.Digit
import HeaderBind.Proofs.Escape.Output
import HeaderBind.Proofs.Json.Reordered
import HeaderBind.Proofs.Config.Reordered
import HeaderBind.Proofs.CommandLine.KeyOrder
import HeaderBind.Proofs.Stages
import HeaderBind.Proofs.Diff.Unified
import HeaderBind.Proofs.Compiler.Launch
import HeaderBind.Proofs.Artifact.Frame
import HeaderBind.Proofs.Diff.Visible
import HeaderBind.Proofs.Draft.Write
import HeaderBind.Proofs.Toolchain.Recorded
import HeaderBind.Proofs.Artifact.Apart
import HeaderBind.Proofs.Config.DefaultOutput
import HeaderBind.Proofs.Declaration.Whole
import HeaderBind.Proofs.Draft.Hygiene
import HeaderBind.Proofs.Json.Plain
import HeaderBind.Proofs.Json.Quoted
import HeaderBind.Proofs.Json.Printed
import HeaderBind.Proofs.Json.ReadBack
import HeaderBind.Proofs.FileTree.ReadBack
import HeaderBind.Proofs.Config.Saved
