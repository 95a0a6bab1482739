import NumScript.Text.Quoted
import NumScript.Number.Numeral
import NumScript.Diagnostic.Printer
import NumScript.Token.Lexer
import NumScript.Env.Forest
import NumScript.Expression.Bind
import NumScript.Program.Reading
import NumScript.Run
import NumScript.Check
import NumScript.Optimize
import NumScript.Digest
import NumScript.Yaml.Error
import NumScript.Yaml.Input
import NumScript.Yaml.Token
import NumScript.Yaml.Token.Scalar
import NumScript.Yaml.Node
import NumScript.Yaml.Value
import NumScript.Yaml.Record
import NumScript.Settings
import NumScript.Settings.Printer
import NumScript.Settings.Reading
import NumScript.Files
import NumScript.Settings.Loading
import NumScript.Cache
import NumScript.Playground
import NumScript.Command
import NumScript.Main
import NumScript.Proofs.Diagnostic.Log
import NumScript.Proofs.Env.Kept
import NumScript.Proofs.Env.Plain
import NumScript.Proofs.Expression.Staged
import NumScript.Proofs.Run.Matching
import NumScript.Proofs.Run.Ending
import NumScript.Proofs.Optimize.Meaning
import NumScript.Proofs.Delimiters
import NumScript.Proofs.Expression.Grammar
import NumScript.Proofs.Expression.Splitting
import NumScript.Proofs.Expression.Flat
import NumScript.Proofs.Expression.Atoms
import NumScript.Proofs.Expression.Reading
import NumScript.Proofs.Expression.Acceptance
import NumScript.Proofs.Program.Grammar
import NumScript.Proofs.Program.Reading
import NumScript.Proofs.Program.Unambiguity
import NumScript.Proofs.Program.Refusing
import NumScript.Proofs.Check.WellFormed
import NumScript.Proofs.Check.Findings
import NumScript.Proofs.Check.Meeting
import NumScript.Proofs.Check.Soundness
import NumScript.Proofs.Optimize.Sourced
import NumScript.Proofs.Env.Resolving
import NumScript.Proofs.Env.Relabeling
import NumScript.Proofs.Env.Unread
import NumScript.Proofs.Run.Reaching
import NumScript.Proofs.Run.Counting
import NumScript.Proofs.Run.Failing
import NumScript.Proofs.Run.Blaming
import NumScript.Proofs.Run.Budget
import NumScript.Proofs.Run.Restoring
import NumScript.Proofs.Run.Copying
import NumScript.Proofs.Run.Isolating
import NumScript.Proofs.Run.Heap
import NumScript.Proofs.Run.Breaking
import NumScript.Proofs.Check.Exactness
import NumScript.Proofs.Check.Usage
import NumScript.Proofs.Token.Pieces
import NumScript.Proofs.Token.Places
import NumScript.Proofs.Env.Constants
import NumScript.Proofs.Env.Calls
import NumScript.Proofs.Playground.Caching
import NumScript.Proofs.Playground.Queue
import NumScript.Proofs.Playground.Eviction
import NumScript.Proofs.Playground.Answering
import NumScript.Proofs.Command.Agreement
import NumScript.Proofs.Env.Views
import NumScript.Proofs.Env.Copies
import NumScript.Proofs.Env.Heap
import NumScript.Proofs.Env.Updates
import NumScript.Proofs.Expression.Meaning
import NumScript.Proofs.Program.Joining
import NumScript.Proofs.Env.Moving
import NumScript.Proofs.Run.Joining
import NumScript.Proofs.Token.Joining
import NumScript.Proofs.Optimize.Rounds
import NumScript.Proofs.Env.Marking
import NumScript.Proofs.Env.Reads
import NumScript.Proofs.Expression.Interpretation
import NumScript.Proofs.Token.Division
import NumScript.Proofs.Token.Layout
import NumScript.Proofs.Expression.Printing
import NumScript.Proofs.Optimize.Agreement
import NumScript.Proofs.Diagnostic.Shelf
import NumScript.Proofs.Token.Spans
import NumScript.Proofs.Token.Scanner
import NumScript.Proofs.Expression.Flaws
import NumScript.Proofs.Program.Flaws
import NumScript.Proofs.Program.Complaints
import NumScript.Proofs.Program.Braces
import NumScript.Proofs.Optimize.Counting
import NumScript.Proofs.Check.Ordering
import NumScript.Proofs.Command.Promoting
import NumScript.Proofs.Settings.Roundtrip
