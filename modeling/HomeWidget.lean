import HomeWidget.CommandLine.Run
import HomeWidget.Fetch.Rehearsal
import HomeWidget.Files.Disk
import HomeWidget.Main
import HomeWidget.Proofs.Carousel.Commits
import HomeWidget.Proofs.Carousel.Positions
import HomeWidget.Proofs.Carousel.Selection
import HomeWidget.Proofs.Definition.Agreement
import HomeWidget.Proofs.Definition.RoundTrip
import HomeWidget.Proofs.Fetch.Advice
import HomeWidget.Proofs.Fetch.Directory
import HomeWidget.Proofs.Fetch.Tokens
import HomeWidget.Proofs.Link.RoundTrip
import HomeWidget.Proofs.Paint.GradientText
import HomeWidget.Proofs.Paint.Sampling
import HomeWidget.Proofs.Paint.Turn
import HomeWidget.Proofs.Surface.Canvas
import HomeWidget.Proofs.Surface.Grid
import HomeWidget.Proofs.Surface.Preview
import HomeWidget.Proofs.Timeline.Refresh
import HomeWidget.Proofs.Definition.Restriction
import HomeWidget.Proofs.Carousel.Pages
import HomeWidget.Proofs.Definition.Edits
import HomeWidget.Proofs.Definition.KnownMembers
import HomeWidget.Proofs.Paint.Blending
import HomeWidget.Proofs.Surface.Range
import HomeWidget.Proofs.Surface.Compositing
import HomeWidget.Proofs.Surface.Scaling
import HomeWidget.Proofs.Surface.References
import HomeWidget.Proofs.Files.Address
import HomeWidget.Proofs.Surface.Locality
import HomeWidget.Proofs.Link.Query
import HomeWidget.Proofs.Carousel.Wrapping
import HomeWidget.Proofs.Link.Pasted
import HomeWidget.Proofs.Timeline.Pruning
import HomeWidget.Proofs.Text.Escapes
import HomeWidget.Proofs.Definition.Stack
