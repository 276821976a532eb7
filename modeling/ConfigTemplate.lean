import ConfigTemplate.Text.Blank
import ConfigTemplate.Text.Lines
import ConfigTemplate.Text.Caseless
import ConfigTemplate.Text.Quoted
import ConfigTemplate.Decimal.Layout
import ConfigTemplate.Group
import ConfigTemplate.Log.Event
import ConfigTemplate.Data.Record
import ConfigTemplate.Json.Read
import ConfigTemplate.Json.Write
import ConfigTemplate.Toml.Document
import ConfigTemplate.Manifest.Read
import ConfigTemplate.Template
import ConfigTemplate.Environment
import ConfigTemplate.Failure
import ConfigTemplate.Settings.Load
import ConfigTemplate.Manifest.Load
import ConfigTemplate.Logging
import ConfigTemplate.Proofs.Traced
import ConfigTemplate.Proofs.Shape
import ConfigTemplate.Proofs.Lines
import ConfigTemplate.Proofs.Layout
import ConfigTemplate.Proofs.Scope
import ConfigTemplate.Proofs.Comment
import ConfigTemplate.Proofs.Refusal
import ConfigTemplate.Proofs.Constraints
import ConfigTemplate.Proofs.Keys
import ConfigTemplate.Proofs.Merge
import ConfigTemplate.Proofs.Nesting
import ConfigTemplate.Proofs.Written
import ConfigTemplate.Proofs.RoundTrip
import ConfigTemplate.Proofs.Placeholder
import ConfigTemplate.Proofs.Substitution
import ConfigTemplate.Proofs.Overlay
import ConfigTemplate.Proofs.Stated
import ConfigTemplate.Proofs.Override
import ConfigTemplate.Proofs.Loading
import ConfigTemplate.Proofs.Composition
import ConfigTemplate.Proofs.Inclusion
import ConfigTemplate.Proofs.Dotted
import ConfigTemplate.Proofs.Literal
import ConfigTemplate.Proofs.Example
import ConfigTemplate.Proofs.Reading
import ConfigTemplate.Proofs.Tree
import ConfigTemplate.Proofs.Sections
import ConfigTemplate.Proofs.Denotation
import ConfigTemplate.Proofs.Handover
import ConfigTemplate.Proofs.Growth
import ConfigTemplate.Proofs.Starting
import ConfigTemplate.Proofs.Members
import ConfigTemplate.Proofs.Places
import ConfigTemplate.Proofs.Rewriting
import ConfigTemplate.Proofs.Blanks
import ConfigTemplate.Proofs.Spelling
import ConfigTemplate.Proofs.Reports
import ConfigTemplate.Proofs.Look
import ConfigTemplate.Proofs.DottedKeys
import ConfigTemplate.Proofs.Restored
import ConfigTemplate.Proofs.Missing
import ConfigTemplate.Proofs.Validity
import ConfigTemplate.Proofs.Regrouping
import ConfigTemplate.Proofs.Steady
import ConfigTemplate.Proofs.Scanning
import ConfigTemplate.Proofs.Ending
import ConfigTemplate.Proofs.Extent
import ConfigTemplate.Proofs.Formats
import ConfigTemplate.Proofs.FromFile
