import RecordSchema.App
import RecordSchema.Browser.Basic
import RecordSchema.Browser.Route
import RecordSchema.Browser.Target
import RecordSchema.Catalog
import RecordSchema.Command.Basic
import RecordSchema.Command.Completion.Bash
import RecordSchema.Command.Completion.Choices
import RecordSchema.Command.Completion.Fish
import RecordSchema.Command.Completion.Powershell
import RecordSchema.Command.Completion.Script
import RecordSchema.Command.Completion.Zsh
import RecordSchema.Command.Flag
import RecordSchema.Command.Help
import RecordSchema.Command.Run
import RecordSchema.Dependency.Order
import RecordSchema.Descriptor.Bundle
import RecordSchema.Descriptor.Record
import RecordSchema.Descriptor.Storage
import RecordSchema.Descriptor.Variant
import RecordSchema.Json.Write
import RecordSchema.Log
import RecordSchema.Main
import RecordSchema.Metrics
import RecordSchema.Model.Basic
import RecordSchema.Model.Database
import RecordSchema.Model.Declaration
import RecordSchema.Model.Object
import RecordSchema.Model.Resolve
import RecordSchema.Model.Values
import RecordSchema.Model.WireTag
import RecordSchema.Naming.Plural
import RecordSchema.Naming.Style
import RecordSchema.Number.Double
import RecordSchema.Number.Integer
import RecordSchema.Number.Notation
import RecordSchema.Number.Shortest
import RecordSchema.Program.Load
import RecordSchema.Program.Scope
import RecordSchema.Proofs.App.Answer
import RecordSchema.Proofs.App.Browser
import RecordSchema.Proofs.App.Reload
import RecordSchema.Proofs.App.Run
import RecordSchema.Proofs.Browser.Route
import RecordSchema.Proofs.Command.Agreement
import RecordSchema.Proofs.Dependency.Depth
import RecordSchema.Proofs.Dependency.Order
import RecordSchema.Proofs.Dependency.Residue
import RecordSchema.Proofs.Descriptor.Calls
import RecordSchema.Proofs.Descriptor.Capacity
import RecordSchema.Proofs.Descriptor.Contents
import RecordSchema.Proofs.Descriptor.Cycle
import RecordSchema.Proofs.Descriptor.Exact
import RecordSchema.Proofs.Descriptor.Integrity
import RecordSchema.Proofs.Descriptor.Order
import RecordSchema.Proofs.Descriptor.Overflow
import RecordSchema.Proofs.Descriptor.Rearranged
import RecordSchema.Proofs.Descriptor.Recursion
import RecordSchema.Proofs.Descriptor.Relative
import RecordSchema.Proofs.Descriptor.Separate
import RecordSchema.Proofs.Descriptor.Storage
import RecordSchema.Proofs.Descriptor.Value
import RecordSchema.Proofs.Json.Form
import RecordSchema.Proofs.Keyed
import RecordSchema.Proofs.Model.Allocation
import RecordSchema.Proofs.Model.ClassTable
import RecordSchema.Proofs.Model.Containment
import RecordSchema.Proofs.Model.Entry
import RecordSchema.Proofs.Model.Extension
import RecordSchema.Proofs.Model.Field
import RecordSchema.Proofs.Model.Index
import RecordSchema.Proofs.Model.Labelled
import RecordSchema.Proofs.Model.Listing
import RecordSchema.Proofs.Model.Location
import RecordSchema.Proofs.Model.Permission
import RecordSchema.Proofs.Model.Reference
import RecordSchema.Proofs.Model.Resolution
import RecordSchema.Proofs.Model.Symbol
import RecordSchema.Proofs.Model.WireTag
import RecordSchema.Proofs.Outcome
import RecordSchema.Proofs.Program.Failure
import RecordSchema.Proofs.Program.ImportCycle
import RecordSchema.Proofs.Program.Imports
import RecordSchema.Proofs.Program.Insertion
import RecordSchema.Proofs.Program.Load
import RecordSchema.Proofs.Program.Loaded
import RecordSchema.Proofs.Program.Lookup
import RecordSchema.Proofs.Program.Namespace
import RecordSchema.Proofs.Program.Part
import RecordSchema.Proofs.Program.Reached
import RecordSchema.Proofs.Program.Reading
import RecordSchema.Proofs.Program.Rearranged
import RecordSchema.Proofs.Program.Repetition
import RecordSchema.Proofs.Program.Tables
import RecordSchema.Proofs.Program.Tried
import RecordSchema.Proofs.Schema.Declarator
import RecordSchema.Proofs.Schema.Document
import RecordSchema.Proofs.Schema.WellFormed
import RecordSchema.Proofs.Session.Build
import RecordSchema.Proofs.Session.Check
import RecordSchema.Proofs.Session.Confined
import RecordSchema.Proofs.Session.Failure
import RecordSchema.Proofs.Session.Repeated
import RecordSchema.Proofs.Session.Run
import RecordSchema.Proofs.Session.Settled
import RecordSchema.Proofs.Session.Sources
import RecordSchema.Proofs.Session.Tally
import RecordSchema.Proofs.Settings.Precedence
import RecordSchema.Proofs.Sorting
import RecordSchema.Proofs.Store.Disk
import RecordSchema.Proofs.Store.Ensured
import RecordSchema.Proofs.Store.Output
import RecordSchema.Proofs.Store.Reference
import RecordSchema.Proofs.Store.Source
import RecordSchema.Proofs.Store.Within
import RecordSchema.Proofs.Text.Blank
import RecordSchema.Proofs.Text.Glyph
import RecordSchema.Proofs.Text.Path
import RecordSchema.Proofs.Threaded
import RecordSchema.Proofs.Value.Literal
import RecordSchema.Proofs.Yaml.Settled
import RecordSchema.Report.Columns
import RecordSchema.Report.Format
import RecordSchema.Report.Table
import RecordSchema.Schema.Attributes
import RecordSchema.Schema.Declarator
import RecordSchema.Schema.Document
import RecordSchema.Schema.Error
import RecordSchema.Schema.Keyword
import RecordSchema.Schema.Level
import RecordSchema.Session.Arrangement
import RecordSchema.Session.Build
import RecordSchema.Session.Error
import RecordSchema.Session.Service
import RecordSchema.Settings.Basic
import RecordSchema.Settings.Environment
import RecordSchema.Settings.Holder
import RecordSchema.Settings.Load
import RecordSchema.Sorting
import RecordSchema.Store.Disk
import RecordSchema.Store.Library
import RecordSchema.Store.Output
import RecordSchema.Store.Source
import RecordSchema.Store.Storage
import RecordSchema.Text.Base64
import RecordSchema.Text.Basic
import RecordSchema.Text.Blank
import RecordSchema.Text.Digest
import RecordSchema.Text.Distance
import RecordSchema.Text.Keyed
import RecordSchema.Text.Letter
import RecordSchema.Text.LetterCase
import RecordSchema.Text.Path
import RecordSchema.Text.Quoted
import RecordSchema.Text.Utf8
import RecordSchema.Time.Clock
import RecordSchema.Time.Duration
import RecordSchema.Time.Timestamp
import RecordSchema.Value.Basic
import RecordSchema.Value.Literal
import RecordSchema.Yaml.Character
import RecordSchema.Yaml.Decode
import RecordSchema.Yaml.Document
import RecordSchema.Yaml.Input
import RecordSchema.Yaml.Node
import RecordSchema.Yaml.Order
import RecordSchema.Yaml.Presentation
import RecordSchema.Yaml.Problem
import RecordSchema.Yaml.Scalar
import RecordSchema.Yaml.Token
import RecordSchema.Yaml.TokenStream
import RecordSchema.Yaml.TokenStream.Basic
import RecordSchema.Yaml.TokenStream.BlockScalar
import RecordSchema.Yaml.TokenStream.FlowScalar
import RecordSchema.Yaml.TokenStream.Property
import RecordSchema.Yaml.TokenStream.Queue
import RecordSchema.Yaml.TokenStream.Space
import RecordSchema.Yaml.Write
