import LabelPress.Label.Source
import LabelPress.Main
import LabelPress.Proofs.Markup.Reading
import LabelPress.Proofs.Markup.Spans
import LabelPress.Proofs.Markup.Parts
import LabelPress.Proofs.Markup.Joined
import LabelPress.Proofs.Markup.Layout
import LabelPress.Proofs.Markup.Lines
import LabelPress.Proofs.Text.Words
import LabelPress.Proofs.Estimate.Contents
import LabelPress.Proofs.Estimate.Lines
import LabelPress.Proofs.Number.Decimal
import LabelPress.Proofs.Estimate.Asked
import LabelPress.Proofs.Text.Occurrences
import LabelPress.Proofs.Finish.Placeholder
import LabelPress.Proofs.Estimate.LineCount
import LabelPress.Proofs.Finish.Width
import LabelPress.Proofs.Finish.Length
import LabelPress.Proofs.Text.Replaced
import LabelPress.Proofs.Markup.Payloads
import LabelPress.Proofs.Finish.Frame
import LabelPress.Proofs.Finish.Again
import LabelPress.Proofs.Finish.Limit
import LabelPress.Proofs.Estimate.Meaning
import LabelPress.Proofs.Delivery.Retries
import LabelPress.Proofs.Markup.Names
import LabelPress.Proofs.Finish.Opening
import LabelPress.Proofs.NameMap
import LabelPress.Proofs.Text.Utf8
import LabelPress.Proofs.Json.Tokens
import LabelPress.Proofs.Json.Documents
import LabelPress.Proofs.Label.Stored
import LabelPress.Proofs.Files.Places
import LabelPress.Proofs.Files.Replace
import LabelPress.Proofs.CommandLine.Templates
import LabelPress.Proofs.Label.Pieces
import LabelPress.Proofs.Markup.Relaid
import LabelPress.Proofs.Markup.Params
import LabelPress.Proofs.Markup.Settled
import LabelPress.Proofs.CommandLine.Format
import LabelPress.Proofs.Finish.Inserted
import LabelPress.Proofs.Finish.LengthTags
import LabelPress.Proofs.Files.Found
import LabelPress.Proofs.Files.Course
import LabelPress.Proofs.Delivery.Replaced
import LabelPress.Proofs.Outcomes
import LabelPress.Proofs.Estimate.Growth
import LabelPress.Proofs.Label.Faults
import LabelPress.Proofs.Markup.LineFeeds
import LabelPress.Proofs.Markup.OneLine
import LabelPress.Proofs.Json.Values
import LabelPress.Proofs.CommandLine.Documents
import LabelPress.Proofs.Delivery.Pauses
import LabelPress.Proofs.Delivery.Written
import LabelPress.Proofs.Markup.Renamed
import LabelPress.Proofs.Network.Numbers
import LabelPress.Proofs.Delivery.Resolved
import LabelPress.Proofs.Json.Records
import LabelPress.Proofs.Settings
