import AssetPlan.Command.Basic
import AssetPlan.Command.Line
import AssetPlan.Command.Needs
import AssetPlan.Command.Report
import AssetPlan.Command.Run
import AssetPlan.Command.Word
import AssetPlan.Config.Assignment
import AssetPlan.Config.Build
import AssetPlan.Config.Defaults
import AssetPlan.Config.Effective
import AssetPlan.Config.Error
import AssetPlan.Config.Merge
import AssetPlan.Config.Preset
import AssetPlan.Config.Project
import AssetPlan.Config.Source
import AssetPlan.Content.Base64
import AssetPlan.Content.MediaType
import AssetPlan.Content.Sha256
import AssetPlan.Decimal.Double
import AssetPlan.Decimal.Layout
import AssetPlan.Decimal.Reading
import AssetPlan.Decimal.Shortest
import AssetPlan.Files.Error
import AssetPlan.Files.Tree
import AssetPlan.Journal.Event
import AssetPlan.Journal.Logged
import AssetPlan.Main
import AssetPlan.Output.Placement
import AssetPlan.Output.Settings
import AssetPlan.Output.Template
import AssetPlan.Path.Normal
import AssetPlan.Path.Parts
import AssetPlan.Path.Scope
import AssetPlan.Path.Url
import AssetPlan.Pattern.Basic
import AssetPlan.Pattern.CharSet
import AssetPlan.Pattern.Error
import AssetPlan.Pattern.Match
import AssetPlan.Pattern.Parser
import AssetPlan.Pattern.Syntax
import AssetPlan.Proofs.Command.Verdict
import AssetPlan.Proofs.Config.Addressing
import AssetPlan.Proofs.Config.Appending
import AssetPlan.Proofs.Config.Assigned
import AssetPlan.Proofs.Config.Assignment
import AssetPlan.Proofs.Config.Build
import AssetPlan.Proofs.Config.Conflict
import AssetPlan.Proofs.Config.Document
import AssetPlan.Proofs.Config.Effective
import AssetPlan.Proofs.Config.Emission
import AssetPlan.Proofs.Config.Grouping
import AssetPlan.Proofs.Config.Independent
import AssetPlan.Proofs.Config.Keys
import AssetPlan.Proofs.Config.Layers
import AssetPlan.Proofs.Config.Merge
import AssetPlan.Proofs.Config.Naming
import AssetPlan.Proofs.Config.Placing
import AssetPlan.Proofs.Config.Project
import AssetPlan.Proofs.Config.Rebuilding
import AssetPlan.Proofs.Config.RoundTrip
import AssetPlan.Proofs.Config.Sequential
import AssetPlan.Proofs.Content.Base64
import AssetPlan.Proofs.Except
import AssetPlan.Proofs.Files.Tree
import AssetPlan.Proofs.Output.Digits
import AssetPlan.Proofs.Output.Inlining
import AssetPlan.Proofs.Output.OwnName
import AssetPlan.Proofs.Output.Placement
import AssetPlan.Proofs.Output.Policy
import AssetPlan.Proofs.Output.Query
import AssetPlan.Proofs.Output.Refusal
import AssetPlan.Proofs.Output.Rendering
import AssetPlan.Proofs.Output.Template
import AssetPlan.Proofs.Output.Token
import AssetPlan.Proofs.Path.Apart
import AssetPlan.Proofs.Path.Canonical
import AssetPlan.Proofs.Path.Location
import AssetPlan.Proofs.Path.Normal
import AssetPlan.Proofs.Path.Parts
import AssetPlan.Proofs.Path.Query
import AssetPlan.Proofs.Path.Return
import AssetPlan.Proofs.Path.Scope
import AssetPlan.Proofs.Path.Url
import AssetPlan.Proofs.Path.Walk
import AssetPlan.Proofs.Rule.Compilation
import AssetPlan.Proofs.Rule.Confinement
import AssetPlan.Proofs.Rule.Explanation
import AssetPlan.Proofs.Rule.Nesting
import AssetPlan.Proofs.Rule.Presence
import AssetPlan.Proofs.Rule.Scope
import AssetPlan.Proofs.Rule.Table
import AssetPlan.Proofs.Schema.Form
import AssetPlan.Proofs.Schema.Record
import AssetPlan.Proofs.Schema.Written
import AssetPlan.Proofs.Text.Blank
import AssetPlan.Proofs.Text.Bytes
import AssetPlan.Proofs.Text.Split
import AssetPlan.Proofs.Toml.Conversion
import AssetPlan.Proofs.Toml.Moment
import AssetPlan.Proofs.Toml.Reading
import AssetPlan.Proofs.Value.Canonical
import AssetPlan.Proofs.Value.Entries
import AssetPlan.Proofs.Value.Ordered
import AssetPlan.Rule.Basic
import AssetPlan.Rule.Definition
import AssetPlan.Rule.Error
import AssetPlan.Rule.Explanation
import AssetPlan.Rule.Matcher
import AssetPlan.Rule.Pipeline
import AssetPlan.Rule.Policy
import AssetPlan.Rule.Table
import AssetPlan.Schema.Error
import AssetPlan.Schema.Record
import AssetPlan.Text.Blank
import AssetPlan.Text.Invisible
import AssetPlan.Text.Letter
import AssetPlan.Text.Quoted
import AssetPlan.Text.Split
import AssetPlan.Text.Utf8
import AssetPlan.Toml.Basic
import AssetPlan.Toml.Marked
import AssetPlan.Toml.Parser
import AssetPlan.Toml.Scalar
import AssetPlan.Toml.Table
import AssetPlan.Value.Basic
import AssetPlan.Value.Json.Reader
import AssetPlan.Value.Json.Writer
