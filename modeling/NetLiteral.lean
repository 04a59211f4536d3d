import NetLiteral.Bytes
import NetLiteral.ByteClass
import NetLiteral.Numeral
import NetLiteral.Failure
import NetLiteral.Log.Record
import NetLiteral.Cursor
import NetLiteral.Parser
import NetLiteral.Number
import NetLiteral.TextForm
import NetLiteral.Octets
import NetLiteral.Family
import NetLiteral.PrefixLength
import NetLiteral.Address.Basic
import NetLiteral.Address.Ipv4
import NetLiteral.Address.Ipv6
import NetLiteral.Address.Ethernet
import NetLiteral.Address.Text
import NetLiteral.Endpoint
import NetLiteral.Route
import NetLiteral.Hosts
import NetLiteral.RouteTable
import NetLiteral.Hostname
import NetLiteral.Host
import NetLiteral.Socket
import NetLiteral.Cursor.Script
import NetLiteral.Text.CodeRange
import NetLiteral.Text.Printable
import NetLiteral.Text.Cased
import NetLiteral.Text.CaseIgnorable
import NetLiteral.Text.CaseMapping
import NetLiteral.Text.Lowercase
import NetLiteral.Text.Quoted
import NetLiteral.Log.Line
import NetLiteral.Json
import NetLiteral.Yaml.Basic
import NetLiteral.Yaml.Character
import NetLiteral.Yaml.Source
import NetLiteral.Yaml.Scalar.Gap
import NetLiteral.Yaml.Scalar.Plain
import NetLiteral.Yaml.Scalar.Quoted
import NetLiteral.Yaml.Scalar.Block
import NetLiteral.Yaml.Tag
import NetLiteral.Yaml.Token
import NetLiteral.Yaml.Layout
import NetLiteral.Yaml.Token.Sequence
import NetLiteral.Yaml.Document
import NetLiteral.Settings.Basic
import NetLiteral.Settings.Entries
import NetLiteral.Settings.File
import NetLiteral.Settings.Load
import NetLiteral.Kind
import NetLiteral.Transcript
import NetLiteral.CommandError
import NetLiteral.Report.Parse
import NetLiteral.Report.Hosts
import NetLiteral.Report.Lookup
import NetLiteral.Log.Filter
import NetLiteral.CommandLine.Argument
import NetLiteral.CommandLine.Invocation
import NetLiteral.Program
import NetLiteral.Main
import NetLiteral.Proofs.Octets.Prefix
import NetLiteral.Proofs.Route.Order
import NetLiteral.Proofs.Route.Containment
import NetLiteral.Proofs.RouteTable.Operation
import NetLiteral.Proofs.RouteTable.FiniteMap
import NetLiteral.Proofs.Bytes.Encoding
import NetLiteral.Proofs.Bytes.Join
import NetLiteral.Proofs.Numeral
import NetLiteral.Proofs.RouteTable.LongestPrefix
import NetLiteral.Proofs.Address.Ipv6.Grammar
import NetLiteral.Proofs.Address.Ipv6.InPlace
import NetLiteral.Proofs.ByteClass
import NetLiteral.Proofs.Parser.Eval
import NetLiteral.Proofs.Parser.Reads
import NetLiteral.Proofs.Address.Ethernet
import NetLiteral.Proofs.Address.Ipv4
import NetLiteral.Proofs.Address.Ipv6.Canonical
import NetLiteral.Proofs.Address.Text
import NetLiteral.Proofs.Number
import NetLiteral.Proofs.Composite
import NetLiteral.Proofs.Host
import NetLiteral.Proofs.RoundTrip
import NetLiteral.Proofs.Octets.Value
import NetLiteral.Proofs.Address.Value
import NetLiteral.Proofs.Hosts
import NetLiteral.Proofs.Cursor.Reach
import NetLiteral.Proofs.Parser.Progress
import NetLiteral.Proofs.Parser.Accepts
import NetLiteral.Proofs.Parser.Scan
import NetLiteral.Proofs.Reader.Progress
import NetLiteral.Proofs.Reader.Scan
import NetLiteral.Proofs.Address.Stream
import NetLiteral.Proofs.Host.Choice
import NetLiteral.Proofs.Kind
import NetLiteral.Proofs.Octets.Mask
import NetLiteral.Proofs.Composite.Grammar
import NetLiteral.Proofs.Hostname.Grammar
import NetLiteral.Proofs.Report.Lookup
import NetLiteral.Proofs.Address.Ipv6.ZeroRun
import NetLiteral.Proofs.Route.Obtained
import NetLiteral.Proofs.Cursor.Script
import NetLiteral.Proofs.Number.Range
import NetLiteral.Proofs.Route.Nesting
import NetLiteral.Proofs.Host.Port
import NetLiteral.Proofs.Report.Hosts
import NetLiteral.Proofs.Failure
import NetLiteral.Proofs.Parser.Choice
import NetLiteral.Proofs.Failure.Grouping
import NetLiteral.Proofs.Failure.Reported
import NetLiteral.Proofs.Parser.Shift
import NetLiteral.Proofs.Reader.Shift
import NetLiteral.Proofs.Composite.Failure
import NetLiteral.Proofs.Cursor.Boundary
import NetLiteral.Proofs.Settings.Precedence
import NetLiteral.Proofs.Json
import NetLiteral.Proofs.Report.Formats
