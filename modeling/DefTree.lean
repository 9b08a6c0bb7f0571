import DefTree.Text.Blank
import DefTree.Text.Lines
import DefTree.Text.Printable
import DefTree.Text.Quoted
import DefTree.Text.ScriptDigit
import DefTree.Text.Word
import DefTree.Numeral
import DefTree.Binary64
import DefTree.Decimal
import DefTree.Text.Conversion
import DefTree.Number
import DefTree.Scalar
import DefTree.Setting
import DefTree.Attributes
import DefTree.Comment
import DefTree.Line
import DefTree.Fault
import DefTree.Index
import DefTree.Block
import DefTree.Block.Extract
import DefTree.Node
import DefTree.Loader
import DefTree.Run
import DefTree.Build
import DefTree.Json
import DefTree.Json.Token
import DefTree.Json.Reader
import DefTree.Node.Json
import DefTree.Node.Check
import DefTree.Cursor
import DefTree.Log.Format
import DefTree.Log
import DefTree.Settings
import DefTree.Path
import DefTree.Encoding
import DefTree.Disk
import DefTree.Session
import DefTree.CommandLine.Options
import DefTree.CommandLine
import DefTree.Main
import DefTree.Proofs.Run
import DefTree.Proofs.Block
import DefTree.Proofs.Front
import DefTree.Proofs.Text
import DefTree.Proofs.Comment
import DefTree.Proofs.Parse
import DefTree.Proofs.LineNumber
import DefTree.Proofs.Expansion
import DefTree.Proofs.Machine
import DefTree.Proofs.Number
import DefTree.Proofs.Layout
import DefTree.Proofs.Attributes
import DefTree.Proofs.Reading
import DefTree.Proofs.RoundTrip
import DefTree.Proofs.Content
import DefTree.Proofs.Library
import DefTree.Proofs.Visit
import DefTree.Proofs.Imports
import DefTree.Proofs.Provenance
import DefTree.Proofs.WellFormed
import DefTree.Proofs.FaultLine
import DefTree.Proofs.ImportCycle
import DefTree.Proofs.Concatenation
import DefTree.Proofs.Indentation
import DefTree.Proofs.QuotedText
import DefTree.Proofs.DigitLimit
import DefTree.Proofs.Failure
import DefTree.Proofs.BlockStructure
import DefTree.Proofs.Shortest
import DefTree.Proofs.FloatText
import DefTree.Proofs.JsonText
import DefTree.Proofs.Dump
import DefTree.Proofs.JsonLayout
import DefTree.Proofs.Recheck
import DefTree.Proofs.Channels
import DefTree.Proofs.Gating
import DefTree.Proofs.Records
import DefTree.Proofs.LogText
import DefTree.Proofs.Erasure
import DefTree.Proofs.BraceDepth
import DefTree.Proofs.FunctionBody
import DefTree.Proofs.Traversal
import DefTree.Proofs.DotPath
import DefTree.Proofs.PathKey
import DefTree.Proofs.Outcome
import DefTree.Proofs.Margin
import DefTree.Proofs.NumberForm
import DefTree.Proofs.AttributeList
import DefTree.Proofs.BareToken
import DefTree.Proofs.ReadingHead
import DefTree.Proofs.SkippedLine
import DefTree.Proofs.Deferral
import DefTree.Proofs.BlockOpener
import DefTree.Proofs.BracePlacement
