import UserScripts.Cache
import UserScripts.CommandLine.Archive
import UserScripts.CommandLine.Arguments
import UserScripts.CommandLine.Batch
import UserScripts.CommandLine.Command
import UserScripts.CommandLine.Program
import UserScripts.CommandLine.Screen
import UserScripts.CommandLine.World
import UserScripts.Connection
import UserScripts.Documentation
import UserScripts.Edit
import UserScripts.Entry.Address
import UserScripts.Entry.Basic
import UserScripts.Entry.Printer
import UserScripts.Entry.Statement
import UserScripts.Failure
import UserScripts.Gathering
import UserScripts.Keyed
import UserScripts.Lock
import UserScripts.Log
import UserScripts.Main
import UserScripts.Manager.Basic
import UserScripts.Manager.Capture
import UserScripts.Manager.Install
import UserScripts.Manager.Move
import UserScripts.Manager.Normalize
import UserScripts.Manager.Read
import UserScripts.Number.Binary64
import UserScripts.Page.Change
import UserScripts.Page.Match
import UserScripts.Routine
import UserScripts.Session
import UserScripts.Settings.Basic
import UserScripts.Settings.Layer
import UserScripts.Settings.Source
import UserScripts.Summary
import UserScripts.Text.Blank
import UserScripts.Text.Case
import UserScripts.Text.CaseTable
import UserScripts.Text.HiddenTable
import UserScripts.Text.Lines
import UserScripts.Text.Literal
import UserScripts.Text.Percent
import UserScripts.Text.Quoted
import UserScripts.Text.Scan
import UserScripts.Text.Word
import UserScripts.Text.WordTable
import UserScripts.Url.Address
import UserScripts.Url.Basic
import UserScripts.Value.Basic
import UserScripts.Value.Json
import UserScripts.Value.Merge
import UserScripts.Value.Moment
import UserScripts.Value.Schema
import UserScripts.Wiki.Host
import UserScripts.Wiki.Interwiki
import UserScripts.Wiki.Pages
import UserScripts.Wrapper.Entry
import UserScripts.Wrapper.Item
import UserScripts.Wrapper.Marker
import UserScripts.Wrapper.Place
import UserScripts.Wrapper.Render
import UserScripts.Wrapper.Report
import UserScripts.Yaml.Basic
import UserScripts.Yaml.Block
import UserScripts.Yaml.Document
import UserScripts.Yaml.Node
import UserScripts.Yaml.Plain
import UserScripts.Yaml.Property
import UserScripts.Yaml.Quoted
import UserScripts.Yaml.Scalar
import UserScripts.Yaml.Token
import UserScripts.Proofs.Statement.Reader
import UserScripts.Proofs.Statement.Shape
import UserScripts.Proofs.Text.Lines
import UserScripts.Proofs.Text.Scan
import UserScripts.Proofs.Wrapper.Marker
import UserScripts.Proofs.Value.Json
import UserScripts.Proofs.Wrapper.Field
import UserScripts.Proofs.Wrapper.Render
import UserScripts.Proofs.Wrapper.RoundTrip
import UserScripts.Proofs.Manager.Steps
import UserScripts.Proofs.Manager.Effects
import UserScripts.Proofs.Wrapper.Place
import UserScripts.Proofs.Page.Change
import UserScripts.Proofs.Page.Frame
import UserScripts.Proofs.Page.Wrapper
import UserScripts.Proofs.Page.Match
import UserScripts.Proofs.Session.Effect
import UserScripts.Proofs.Lock.Queue
import UserScripts.Proofs.Lock.Order
import UserScripts.Proofs.Lock.Keys
import UserScripts.Proofs.Lock.Progress
import UserScripts.Proofs.Manager.Honest
import UserScripts.Proofs.Manager.History
import UserScripts.Proofs.Statement.Address
import UserScripts.Proofs.Statement.Literal
import UserScripts.Proofs.Statement.Served
import UserScripts.Proofs.Statement.Return
import UserScripts.Proofs.Statement.Survival
import UserScripts.Proofs.Text.Percent
import UserScripts.Proofs.Statement.RoundTrip
import UserScripts.Proofs.Session.Visited
import UserScripts.Proofs.Manager.Outcome
import UserScripts.Proofs.Manager.Frame
import UserScripts.Proofs.Manager.Move
import UserScripts.Proofs.Page.Loads
import UserScripts.Proofs.Manager.Agreement
import UserScripts.Proofs.Wrapper.Blocks
import UserScripts.Proofs.Wrapper.Decoded
import UserScripts.Proofs.Page.Removal
import UserScripts.Proofs.Manager.Complete
import UserScripts.Proofs.Statement.Settled
import UserScripts.Proofs.Page.Rewritten
import UserScripts.Proofs.Manager.Normalized
import UserScripts.Proofs.Manager.Orderly
import UserScripts.Proofs.Manager.Request
import UserScripts.Proofs.Manager.Cached
import UserScripts.Proofs.Manager.DryRun
import UserScripts.Proofs.Manager.Nesting
import UserScripts.Proofs.Gathering.Sound
import UserScripts.Proofs.Gathering.Halt
import UserScripts.Proofs.Gathering.Alone
import UserScripts.Proofs.Gathering.Ring
import UserScripts.Proofs.Statement.Kept
import UserScripts.Proofs.Wrapper.Loads
import UserScripts.Proofs.Manager.Verdict
import UserScripts.Proofs.Manager.FailOpen
import UserScripts.Proofs.Page.Placed
import UserScripts.Proofs.Manager.CallOnly
import UserScripts.Proofs.Wrapper.Exact
import UserScripts.Proofs.Page.Layout
import UserScripts.Proofs.Page.Apart
import UserScripts.Proofs.Manager.Apart
import UserScripts.Proofs.Statement.Grammar
import UserScripts.Proofs.Statement.Recognized
import UserScripts.Proofs.Session.Refusal
import UserScripts.Proofs.Manager.Batch
import UserScripts.Proofs.CommandLine.Targets
import UserScripts.Proofs.Page.Off
import UserScripts.Proofs.CommandLine.Relocation
import UserScripts.Proofs.Gathering.Section
import UserScripts.Proofs.Text.Sigma
import UserScripts.Proofs.Gathering.SharedKey
import UserScripts.Proofs.Wrapper.Revised
import UserScripts.Proofs.Manager.LineByLine
import UserScripts.Proofs.Page.Switched
import UserScripts.Proofs.Manager.Switched
import UserScripts.Proofs.Page.Appended
import UserScripts.Proofs.Manager.Appended
import UserScripts.Proofs.Wrapper.Unclosed
import UserScripts.Proofs.Page.Captured
import UserScripts.Proofs.Manager.Captured
import UserScripts.Proofs.Wrapper.Origin
import UserScripts.Proofs.Manager.Tolerant
import UserScripts.Proofs.Statement.Query
import UserScripts.Proofs.Statement.Authority
import UserScripts.Proofs.Statement.Host
import UserScripts.Proofs.Page.Released
import UserScripts.Proofs.Manager.Released
import UserScripts.Proofs.Statement.Backlink
import UserScripts.Proofs.Wrapper.Detection
import UserScripts.Proofs.Value.Merge
import UserScripts.Proofs.Settings.Assignments
import UserScripts.Proofs.Connection
import UserScripts.Proofs.Wrapper.Parts
