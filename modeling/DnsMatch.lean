import DnsMatch.Files.Tree
import DnsMatch.Main
import DnsMatch.Segment.Cursor
import DnsMatch.Session
import DnsMatch.Toml.Table
import DnsMatch.Wire.Layout
import DnsMatch.Proofs.Spelling
import DnsMatch.Proofs.Wire.Cursor
import DnsMatch.Proofs.Wire.Name
import DnsMatch.Proofs.Wire.Walk
import DnsMatch.Proofs.Wire.Delimited
import DnsMatch.Proofs.Wire.Grammar
import DnsMatch.Proofs.Wire.Window
import DnsMatch.Proofs.Comparison
import DnsMatch.Proofs.IgnoringTtls
import DnsMatch.Proofs.FirstDifference
import DnsMatch.Proofs.Wire.Layout
import DnsMatch.Proofs.Wire.Cut
import DnsMatch.Proofs.Wire.Lengths
import DnsMatch.Proofs.Wire.ByLengths
import DnsMatch.Proofs.Batch
import DnsMatch.Proofs.Strictness
import DnsMatch.Proofs.Outcomes
import DnsMatch.Proofs.Toml.Table
import DnsMatch.Proofs.ConfigurationFile
import DnsMatch.Proofs.Toml.Reading
import DnsMatch.Proofs.OnePair
import DnsMatch.Proofs.Wire.NameInPlace
import DnsMatch.Proofs.Spacing
import DnsMatch.Proofs.AnyOffsets
import DnsMatch.Proofs.Wire.Continuation
import DnsMatch.Proofs.Segment.Tiling
import DnsMatch.Proofs.Text.Blank
import DnsMatch.Proofs.Text.Hex
import DnsMatch.Proofs.Text.Base64
import DnsMatch.Proofs.MessageFile
import DnsMatch.Proofs.Wire.Trace
import DnsMatch.Proofs.Diagnostics
import DnsMatch.Proofs.Config.Paths
import DnsMatch.Proofs.CommandLine
import DnsMatch.Proofs.Wire.Numbers
import DnsMatch.Proofs.Wording
