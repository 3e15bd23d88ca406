import DocWeave.Combine
import DocWeave.Command.Arguments
import DocWeave.Command.Run
import DocWeave.Config.Basic
import DocWeave.Config.Reader
import DocWeave.Csv
import DocWeave.Decimal.Dyadic
import DocWeave.Decimal.Layout
import DocWeave.Decimal.Literal
import DocWeave.Decimal.Shortest
import DocWeave.Deflate.Bits
import DocWeave.Deflate.Block
import DocWeave.Deflate.Code
import DocWeave.Deflate.Encoder
import DocWeave.Entries
import DocWeave.Files.Access
import DocWeave.Files.Disk
import DocWeave.Files.Load
import DocWeave.Files.Name
import DocWeave.Files.Save
import DocWeave.Format
import DocWeave.Formula
import DocWeave.Gzip.Member
import DocWeave.Json.Fault
import DocWeave.Json.Numeral
import DocWeave.Json.Quoted
import DocWeave.Json.Reader
import DocWeave.Json.Skip
import DocWeave.Json.Writer
import DocWeave.Main
import DocWeave.Parse
import DocWeave.Path.Reader
import DocWeave.Path.Select
import DocWeave.Path.Step
import DocWeave.Projection.Basic
import DocWeave.Projection.Report
import DocWeave.Render
import DocWeave.Request.Mismatch
import DocWeave.Request.Reader
import DocWeave.Request.Writer
import DocWeave.Text.Alphanumeric
import DocWeave.Text.Basic
import DocWeave.Text.Hidden
import DocWeave.Text.Remainder
import DocWeave.Text.Repeat
import DocWeave.Text.Search
import DocWeave.Text.Utf8
import DocWeave.TextCheck
import DocWeave.Toml.Node
import DocWeave.Toml.Quoted
import DocWeave.Toml.Reader
import DocWeave.Toml.Scalar
import DocWeave.Value.Basic
import DocWeave.Value.Equality
import DocWeave.Value.Merge
import DocWeave.Value.Number
import DocWeave.Xml.Flaw
import DocWeave.Xml.Reference
import DocWeave.Xml.Token
import DocWeave.Xml.Tree
import DocWeave.Yaml.Block
import DocWeave.Yaml.Flow
import DocWeave.Yaml.Fold
import DocWeave.Yaml.Lines
import DocWeave.Yaml.Outline
import DocWeave.Yaml.Printer
import DocWeave.Yaml.Scalar
import DocWeave.Yaml.Spot
import DocWeave.Yaml.Style
import DocWeave.Proofs.Entries.Order
import DocWeave.Proofs.Value.ObjectKeys
import DocWeave.Proofs.Value.Layers
import DocWeave.Proofs.Projection.Filled
import DocWeave.Proofs.Outline.Line
import DocWeave.Proofs.Outline.Block
import DocWeave.Proofs.Outline.Parent
import DocWeave.Proofs.Outcome
import DocWeave.Proofs.Text.Repeat
import DocWeave.Proofs.Text.Search
import DocWeave.Proofs.Text.Slice
import DocWeave.Proofs.Xml.Reference
import DocWeave.Proofs.Xml.TagText
import DocWeave.Proofs.Xml.Lexeme
import DocWeave.Proofs.Xml.Scan
import DocWeave.Proofs.Xml.Coverage
import DocWeave.Proofs.Xml.Tag
import DocWeave.Proofs.Xml.Lexing
import DocWeave.Proofs.Xml.Building
import DocWeave.Proofs.Xml.Linear
import DocWeave.Proofs.Xml.Grouping
import DocWeave.Proofs.Xml.Conversion
import DocWeave.Proofs.Xml.Nesting
import DocWeave.Proofs.Xml.Values
import DocWeave.Proofs.Xml.Lists
import DocWeave.Proofs.Xml.RoundTrip
import DocWeave.Proofs.Xml.TagNames
import DocWeave.Proofs.Projection.Events
import DocWeave.Proofs.Value.Parts
import DocWeave.Proofs.Path.Location
import DocWeave.Proofs.Path.Spelling
import DocWeave.Proofs.Path.Reading
import DocWeave.Proofs.Json.Digits
import DocWeave.Proofs.Json.Quoting
import DocWeave.Proofs.Json.Rows
import DocWeave.Proofs.Json.Written
import DocWeave.Proofs.Json.RoundTrip
import DocWeave.Proofs.Text.Lines
import DocWeave.Proofs.Csv.Written
import DocWeave.Proofs.Csv.RoundTrip
import DocWeave.Proofs.Outline.Written
import DocWeave.Proofs.Outline.Comment
import DocWeave.Proofs.Outline.RoundTrip
import DocWeave.Proofs.Value.Writing
import DocWeave.Proofs.Value.WellFormed
import DocWeave.Proofs.Json.Readable
import DocWeave.Proofs.Json.TooDeep
import DocWeave.Proofs.Parse.WellFormed
import DocWeave.Proofs.Parse.Reread
import DocWeave.Proofs.Projection.WellFormed
import DocWeave.Proofs.Combine.WellFormed
import DocWeave.Proofs.Path.Keys
import DocWeave.Proofs.Value.Regrouping
import DocWeave.Proofs.Value.Equality
import DocWeave.Proofs.Value.Independence
import DocWeave.Proofs.Path.Layered
import DocWeave.Proofs.Path.Composition
import DocWeave.Proofs.Path.Address
import DocWeave.Proofs.Projection.Mirror
import DocWeave.Proofs.Projection.Limits
import DocWeave.Proofs.Xml.Doctype
import DocWeave.Proofs.Xml.Attributes
import DocWeave.Proofs.Xml.Preservation
import DocWeave.Proofs.Combine.Formulas
import DocWeave.Proofs.Request.RoundTrip
import DocWeave.Proofs.Files.Place
import DocWeave.Proofs.Files.Saving
import DocWeave.Proofs.Rendering
import DocWeave.Proofs.Command.Output
import DocWeave.Proofs.Text.Encoding
import DocWeave.Proofs.Files.Reloading
import DocWeave.Proofs.Xml.Decoding
import DocWeave.Proofs.Xml.Concatenation
import DocWeave.Proofs.Outline.Cut
import DocWeave.Proofs.Outline.Quotes
import DocWeave.Proofs.Outline.Stray
import DocWeave.Proofs.Outline.QuotedKey
import DocWeave.Proofs.Projection.DeadLeaves
import DocWeave.Proofs.Decimal.Spelling
import DocWeave.Proofs.Decimal.Reading
import DocWeave.Proofs.Decimal.Rounding
import DocWeave.Proofs.Decimal.Finite
import DocWeave.Proofs.Path.Index
import DocWeave.Proofs.Value.Number
import DocWeave.Proofs.Parse.WholeNumbers
import DocWeave.Proofs.Csv.Cells
import DocWeave.Proofs.Csv.Cutting
import DocWeave.Proofs.Combine.Precedence
import DocWeave.Proofs.Deflate.Extension
import DocWeave.Proofs.Deflate.Encoder
import DocWeave.Proofs.Gzip.Members
import DocWeave.Proofs.Command.Members
