import SceneScript.Asset.FileTree
import SceneScript.Main
import SceneScript.Picture.Codec
import SceneScript.Proofs.Index
import SceneScript.Proofs.Run.Execution
import SceneScript.Proofs.Script.CallGraph
import SceneScript.Proofs.Script.Conditions
import SceneScript.Proofs.Table
import SceneScript.Show.Page
import SceneScript.Proofs.Run.Position
import SceneScript.Proofs.Run.Step
import SceneScript.Proofs.Run.Tick
import SceneScript.Proofs.Run.Standing
import SceneScript.Proofs.Lint.Review
import SceneScript.Proofs.Lint.Soundness
import SceneScript.Proofs.Run.Agenda
import SceneScript.Proofs.Run.Remaining
import SceneScript.Proofs.Run.Refinement
import SceneScript.Proofs.Picture.Size
import SceneScript.Proofs.Show.Bookkeeping
import SceneScript.Proofs.Show.Deferral
import SceneScript.Proofs.Show.Stranding
import SceneScript.Proofs.Run.Agreement
import SceneScript.Proofs.Json.Tokens
import SceneScript.Proofs.Json.Spelling
import SceneScript.Proofs.Json.RoundTrip
import SceneScript.Proofs.Json.Reading
import SceneScript.Proofs.Script.Codec
import SceneScript.Proofs.Project.Codec
import SceneScript.Proofs.Project.Depth
import SceneScript.Proofs.Project.RoundTrip
import SceneScript.Proofs.Save.Codec
import SceneScript.Proofs.Save.Continuation
import SceneScript.Proofs.Run.Drive
import SceneScript.Proofs.Run.OpenGroups
import SceneScript.Proofs.Run.Chronicle
import SceneScript.Proofs.Script.Rewriting
import SceneScript.Proofs.Run.Direct
import SceneScript.Proofs.Run.Transitions
import SceneScript.Proofs.Run.Openings
import SceneScript.Proofs.Run.Rewriting
import SceneScript.Proofs.Script.Plot
import SceneScript.Proofs.Run.Plot
import SceneScript.Proofs.Script.Inlining
import SceneScript.Proofs.Run.Hosting
import SceneScript.Proofs.Run.Inlining
import SceneScript.Proofs.Text.Marks
import SceneScript.Proofs.Text.Base64
import SceneScript.Proofs.Publish.Script
import SceneScript.Proofs.Publish.Page
import SceneScript.Proofs.Show.Requests
import SceneScript.Proofs.Show.Rasterizing
import SceneScript.Proofs.Show.Clicks
import SceneScript.Proofs.Picture.Painter
import SceneScript.Proofs.Picture.ChoiceRows
import SceneScript.Proofs.Show.Arrival
import SceneScript.Proofs.Show.Page
import SceneScript.Proofs.Script.CallCycles
import SceneScript.Proofs.Run.Protocol
import SceneScript.Proofs.Run.Refusal
import SceneScript.Proofs.Show.Transitions
import SceneScript.Proofs.Lint.Declarations
import SceneScript.Proofs.Run.Confinement
import SceneScript.Proofs.Picture.Reach
import SceneScript.Proofs.Asset.Embedding
import SceneScript.Proofs.Run.Waits
import SceneScript.Proofs.Script.FirstMatch
import SceneScript.Proofs.Text.Wrap
import SceneScript.Proofs.Picture.Staging
import SceneScript.Proofs.Text.Rewrap
import SceneScript.Proofs.Show.Wipe
import SceneScript.Proofs.Script.Gauge
import SceneScript.Proofs.Run.Following
import SceneScript.Proofs.Run.StepLimit
import SceneScript.Proofs.Show.Redrawing
import SceneScript.Proofs.Show.Mirroring
import SceneScript.Proofs.Show.Recording
import SceneScript.Proofs.Lint.Circles
import SceneScript.Proofs.Picture.Hexadecimal
import SceneScript.Proofs.Picture.Tiling
import SceneScript.Proofs.Publish.Canvas
import SceneScript.Proofs.Publish.Elements
import SceneScript.Proofs.Picture.Sprites
import SceneScript.Proofs.Run.Behind
import SceneScript.Proofs.Run.Overrun
import SceneScript.Proofs.Save.Range
