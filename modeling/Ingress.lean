import Ingress.Address
import Ingress.Address.Known
import Ingress.Annotations
import Ingress.Backend
import Ingress.Balance.Apply
import Ingress.Balance.Expression
import Ingress.Balance.Share
import Ingress.Cluster
import Ingress.Command
import Ingress.Config
import Ingress.Credentials
import Ingress.Declarations
import Ingress.Event
import Ingress.Feature.AllowedRanges
import Ingress.Feature.ExternalAuth
import Ingress.Feature.Firewall
import Ingress.Feature.RewriteTarget
import Ingress.Feature.SessionCookie
import Ingress.Feature.StrictTransport
import Ingress.Feature.UserAuth
import Ingress.Json
import Ingress.Key
import Ingress.Log
import Ingress.Log.Filter
import Ingress.Logged
import Ingress.Main
import Ingress.Path.Group
import Ingress.Path.Set
import Ingress.Proofs.Acceptance
import Ingress.Proofs.Address
import Ingress.Proofs.AllowedRanges
import Ingress.Proofs.Balance
import Ingress.Proofs.Cluster
import Ingress.Proofs.Coarsening
import Ingress.Proofs.Collection
import Ingress.Proofs.Conflict
import Ingress.Proofs.Counters
import Ingress.Proofs.Credentials
import Ingress.Proofs.Decimal
import Ingress.Proofs.Declarations
import Ingress.Proofs.Disagreement
import Ingress.Proofs.ExactShare
import Ingress.Proofs.Expression
import Ingress.Proofs.ExternalAuth
import Ingress.Proofs.FirstAppearance
import Ingress.Proofs.FirstDeclaration
import Ingress.Proofs.HeaderList
import Ingress.Proofs.History
import Ingress.Proofs.Inventory
import Ingress.Proofs.KeyPrefix
import Ingress.Proofs.Layout
import Ingress.Proofs.Limit
import Ingress.Proofs.Lines
import Ingress.Proofs.NearShare
import Ingress.Proofs.Neighbours
import Ingress.Proofs.Outcome
import Ingress.Proofs.Overflow
import Ingress.Proofs.Partition
import Ingress.Proofs.PathSet
import Ingress.Proofs.PlainEvents
import Ingress.Proofs.Proportion
import Ingress.Proofs.ReadKeys
import Ingress.Proofs.Reading
import Ingress.Proofs.Refusal
import Ingress.Proofs.Related
import Ingress.Proofs.Remarks
import Ingress.Proofs.Removal
import Ingress.Proofs.RewriteTarget
import Ingress.Proofs.RouteHistory
import Ingress.Proofs.RoutedPaths
import Ingress.Proofs.Settled
import Ingress.Proofs.Share
import Ingress.Proofs.SingleConflict
import Ingress.Proofs.SoundSettings
import Ingress.Proofs.Standing
import Ingress.Proofs.StrictTransport
import Ingress.Proofs.Topic
import Ingress.Proofs.Update
import Ingress.Proofs.UserAuth
import Ingress.Proofs.Userlists
import Ingress.Proofs.Writes
import Ingress.Report
import Ingress.ResourceId
import Ingress.RouteTable
import Ingress.Settings
import Ingress.Snapshot.Basic
import Ingress.Snapshot.Document
import Ingress.Snapshot.Render
import Ingress.Table
import Ingress.Text.Blank
import Ingress.Text.Digit
import Ingress.Text.Integer
import Ingress.Text.Split
import Ingress.Text.Utf8
import Ingress.Update
import Ingress.Yaml.Block
import Ingress.Yaml.Decode
import Ingress.Yaml.Directive
import Ingress.Yaml.Folding
import Ingress.Yaml.Glyph
import Ingress.Yaml.Node
import Ingress.Yaml.Number
import Ingress.Yaml.Plain
import Ingress.Yaml.Quoted
import Ingress.Yaml.Reference
import Ingress.Yaml.Tag
import Ingress.Yaml.Token
import Ingress.Yaml.Value
