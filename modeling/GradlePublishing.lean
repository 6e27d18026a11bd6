import GradlePublishing.Main
import GradlePublishing.Script.Mask
import GradlePublishing.Script.Occurrence
import GradlePublishing.Proofs.Script.Boundary
import GradlePublishing.Proofs.Script.Automaton
import GradlePublishing.Proofs.Script.Nesting
import GradlePublishing.Proofs.Script.Heads
import GradlePublishing.Proofs.Script.Quoted
import GradlePublishing.Proofs.Script.Passed
import GradlePublishing.Proofs.Script.CommentLine
import GradlePublishing.Proofs.Script.ByLine
import GradlePublishing.Proofs.Script.LineReader
import GradlePublishing.Proofs.Script.Commented
import GradlePublishing.Proofs.Property.Braced
import GradlePublishing.Proofs.Property.Expansion
import GradlePublishing.Proofs.Property.Unresolved
import GradlePublishing.Proofs.Property.Commented
import GradlePublishing.Proofs.Property.Parts
import GradlePublishing.Proofs.Repository.Walk
import GradlePublishing.Proofs.Repository.FirstKey
import GradlePublishing.Proofs.Settings.Usual
import GradlePublishing.Proofs.Table
import GradlePublishing.Proofs.Repository.Precedence
import GradlePublishing.Proofs.Repository.KeyText
import GradlePublishing.Proofs.Repository.Unresolved
import GradlePublishing.Proofs.Repository.KeySegment
import GradlePublishing.Proofs.Repository.Footprint
import GradlePublishing.Proofs.Repository.Failures
import GradlePublishing.Proofs.Repository.FirstSource
import GradlePublishing.Proofs.Repository.Strongest
import GradlePublishing.Proofs.Coordinates.Unresolved
import GradlePublishing.Proofs.Coordinates.Commented
import GradlePublishing.Proofs.Run
import GradlePublishing.Proofs.Reading
import GradlePublishing.Proofs.Transparency
import GradlePublishing.Proofs.Repository.Layout
import GradlePublishing.Proofs.CommandLine.PropertyArguments
import GradlePublishing.Proofs.CommandLine.Record
import GradlePublishing.Proofs.Coordinates.Faults
import GradlePublishing.Proofs.CommandLine.Ending
import GradlePublishing.Proofs.Path
import GradlePublishing.Proofs.Script.Place
import GradlePublishing.Proofs.Coordinates.Gathered
import GradlePublishing.Proofs.Repository.Scanned
import GradlePublishing.Proofs.SameScripts
import GradlePublishing.Proofs.Console.Shown
import GradlePublishing.Proofs.Coordinates.Decided
import GradlePublishing.Proofs.SameSettings
import GradlePublishing.Proofs.Property.Names
import GradlePublishing.Proofs.Property.Pieces
import GradlePublishing.Proofs.Property.Line
import GradlePublishing.Proofs.Property.Layout
import GradlePublishing.Proofs.Script.Depth
import GradlePublishing.Proofs.Script.Escaped
import GradlePublishing.Proofs.Script.Literal
import GradlePublishing.Proofs.Script.Ordinary
import GradlePublishing.Proofs.Script.Shown
import GradlePublishing.Proofs.Script.TopLevel
import GradlePublishing.Proofs.Script.Interior
import GradlePublishing.Proofs.Coordinates.TopLevel
import GradlePublishing.Proofs.Property.Interior
import GradlePublishing.Proofs.Repository.Interior
import GradlePublishing.Proofs.Command.Spelling
import GradlePublishing.Proofs.Command.Written
import GradlePublishing.Proofs.Command.BuildFile
import GradlePublishing.Proofs.Script.Masked
import GradlePublishing.Proofs.Script.Joined
import GradlePublishing.Proofs.Repository.UrlTail
import GradlePublishing.Proofs.Repository.UrlChoice
import GradlePublishing.Proofs.Script.MaskedBlock
import GradlePublishing.Proofs.Script.Occurrences
import GradlePublishing.Proofs.Script.QuotedReader
import GradlePublishing.Proofs.Swallowed
import GradlePublishing.Proofs.Script.ApplyLine
import GradlePublishing.Proofs.Script.AppliedLayout
import GradlePublishing.Proofs.Text.Utf8
import GradlePublishing.Proofs.Property.FileLayout
import GradlePublishing.Proofs.Accepted
