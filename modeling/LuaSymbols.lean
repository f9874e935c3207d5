import LuaSymbols.Command.Arguments
import LuaSymbols.Command.Run
import LuaSymbols.Failure
import LuaSymbols.FileIndex
import LuaSymbols.FileSystem
import LuaSymbols.Glob
import LuaSymbols.Identity
import LuaSymbols.Ignore
import LuaSymbols.Lowering
import LuaSymbols.Lua.Grammar
import LuaSymbols.Lua.Token
import LuaSymbols.Main
import LuaSymbols.Markup
import LuaSymbols.Node
import LuaSymbols.Notice
import LuaSymbols.Number.Binary64
import LuaSymbols.Number.Numeral
import LuaSymbols.Number.Shortest
import LuaSymbols.Outline
import LuaSymbols.ParseTree
import LuaSymbols.Position
import LuaSymbols.Report
import LuaSymbols.Scan
import LuaSymbols.Service
import LuaSymbols.Settings
import LuaSymbols.Source
import LuaSymbols.Table
import LuaSymbols.Text.Blank
import LuaSymbols.Text.Case
import LuaSymbols.Text.Case.Lower
import LuaSymbols.Text.Case.Run
import LuaSymbols.Text.Case.Upper
import LuaSymbols.Text.CodePoint
import LuaSymbols.Text.Digit
import LuaSymbols.Text.Printable
import LuaSymbols.Text.Quoted
import LuaSymbols.Text.Utf8
import LuaSymbols.Toml.Document
import LuaSymbols.Toml.Moment
import LuaSymbols.Toml.Reader
import LuaSymbols.Toml.Value
import LuaSymbols.Uri
import LuaSymbols.Walk
import LuaSymbols.Workspace
import LuaSymbols.Proofs.Consoles
import LuaSymbols.Proofs.Identities
import LuaSymbols.Proofs.Indexing
import LuaSymbols.Proofs.Slots
import LuaSymbols.Proofs.Coherence
import LuaSymbols.Proofs.Answers
import LuaSymbols.Proofs.Uncached
import LuaSymbols.Proofs.CleanEntries
import LuaSymbols.Proofs.LatestText
import LuaSymbols.Proofs.Order
import LuaSymbols.Proofs.Definitions
import LuaSymbols.Proofs.Stores
import LuaSymbols.Proofs.Views
import LuaSymbols.Proofs.Batches
import LuaSymbols.Proofs.Independence
import LuaSymbols.Proofs.Encoding
import LuaSymbols.Proofs.Positions
import LuaSymbols.Proofs.Mentions
import LuaSymbols.Proofs.Cursor
import LuaSymbols.Proofs.Rebuilds
import LuaSymbols.Proofs.Visits
import LuaSymbols.Proofs.Transcripts
import LuaSymbols.Proofs.Reports
import LuaSymbols.Proofs.Ranges
import LuaSymbols.Proofs.Names
import LuaSymbols.Proofs.Dialects
import LuaSymbols.Proofs.Respanning
import LuaSymbols.Proofs.Displacement
import LuaSymbols.Proofs.Scans
import LuaSymbols.Proofs.Comments
import LuaSymbols.Proofs.SyntaxErrors
import LuaSymbols.Proofs.Layers
import LuaSymbols.Proofs.Refusals
import LuaSymbols.Proofs.Lifetimes
import LuaSymbols.Proofs.Passes
import LuaSymbols.Proofs.PlainTexts
import LuaSymbols.Proofs.Spellings
import LuaSymbols.Proofs.FirstJumps
import LuaSymbols.Proofs.Offsets
