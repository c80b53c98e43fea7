import HttpRuntime.Cli.Arrays
import HttpRuntime.Cli.Commands
import HttpRuntime.Cli.Exit
import HttpRuntime.Cli.FrontEnds
import HttpRuntime.Cli.Hex
import HttpRuntime.Cli.Memory.Commands
import HttpRuntime.Cli.Memory.Correctness
import HttpRuntime.Cli.Options
import HttpRuntime.Cli.Output
import HttpRuntime.Cli.Parser
import HttpRuntime.Cli.Report
import HttpRuntime.Cli.RunFile
import HttpRuntime.Cli.Status
import HttpRuntime.Core.Assertion
import HttpRuntime.Core.Assertion.Body
import HttpRuntime.Core.Assertion.Headers
import HttpRuntime.Core.Chunking
import HttpRuntime.Core.DbManager.Basic
import HttpRuntime.Core.DbManager.Claim
import HttpRuntime.Core.DbManager.ClaimAtomic
import HttpRuntime.Core.DbManager.ClaimOrder
import HttpRuntime.Core.DbManager.ClaimProgress
import HttpRuntime.Core.DbManager.Clear
import HttpRuntime.Core.DbManager.Connections
import HttpRuntime.Core.DbManager.Decode
import HttpRuntime.Core.DbManager.ForeignKeys
import HttpRuntime.Core.DbManager.IdRange
import HttpRuntime.Core.DbManager.Identity
import HttpRuntime.Core.DbManager.LatestResponse
import HttpRuntime.Core.DbManager.Lemmas
import HttpRuntime.Core.DbManager.NoDoubleClaim
import HttpRuntime.Core.DbManager.Reachable
import HttpRuntime.Core.DbManager.ResponseStore
import HttpRuntime.Core.DbManager.Responses
import HttpRuntime.Core.DbManager.SaveRequest
import HttpRuntime.Core.DbManager.Saves
import HttpRuntime.Core.DbManager.Serializable
import HttpRuntime.Core.DbManager.StoredBody
import HttpRuntime.Core.Engine.Attribution
import HttpRuntime.Core.Engine.Basic
import HttpRuntime.Core.Engine.Coherence
import HttpRuntime.Core.Engine.Erasure
import HttpRuntime.Core.Engine.History
import HttpRuntime.Core.Engine.Ideal
import HttpRuntime.Core.Engine.Invariant
import HttpRuntime.Core.Engine.Ledger
import HttpRuntime.Core.Engine.Liveness
import HttpRuntime.Core.Engine.Reachable
import HttpRuntime.Core.Engine.Schedule
import HttpRuntime.Core.Engine.Sequential
import HttpRuntime.Core.Engine.Tally
import HttpRuntime.Core.Engine.Tidy
import HttpRuntime.Core.Engine.Verdict
import HttpRuntime.Core.Engine.Wait
import HttpRuntime.Core.HeaderLines
import HttpRuntime.Core.Models
import HttpRuntime.Core.PlanMemory
import HttpRuntime.Core.Queue.Basic
import HttpRuntime.Core.Queue.Lemmas
import HttpRuntime.Core.Queue.Refinement
import HttpRuntime.Core.Queue.Wakeup
import HttpRuntime.Core.Redirects
import HttpRuntime.Core.RunPlan
import HttpRuntime.Core.Runtime.Basic
import HttpRuntime.Core.Runtime.Carried
import HttpRuntime.Core.Runtime.Conservation
import HttpRuntime.Core.Runtime.DbWork
import HttpRuntime.Core.Runtime.Deadlock
import HttpRuntime.Core.Runtime.Flows
import HttpRuntime.Core.Runtime.Lifecycle
import HttpRuntime.Core.Runtime.Liveness
import HttpRuntime.Core.Runtime.Nodes
import HttpRuntime.Core.Runtime.NodesRefine
import HttpRuntime.Core.Runtime.Owned
import HttpRuntime.Core.Runtime.Rank
import HttpRuntime.Core.Runtime.Shutdown
import HttpRuntime.Core.Sqlite.Basic
import HttpRuntime.Core.Sqlite.Lemmas
import HttpRuntime.Core.Sqlite.Limit
import HttpRuntime.Core.Worker
import HttpRuntime.Core.Worker.Buffers
import HttpRuntime.Core.Worker.Cleanup
import HttpRuntime.Core.Worker.Memory
import HttpRuntime.Dsl.Automaton
import HttpRuntime.Dsl.Comments
import HttpRuntime.Dsl.Composition
import HttpRuntime.Dsl.Grammar
import HttpRuntime.Dsl.Lexer.Basic
import HttpRuntime.Dsl.Lexer.Chunks
import HttpRuntime.Dsl.Lexer.Lemmas
import HttpRuntime.Dsl.Lexer.Lines
import HttpRuntime.Dsl.Lexer.Spans
import HttpRuntime.Dsl.Lexer.Tokens
import HttpRuntime.Dsl.Lexer.Words
import HttpRuntime.Dsl.LineEndings
import HttpRuntime.Dsl.Memory.Correctness
import HttpRuntime.Dsl.Memory.Follows
import HttpRuntime.Dsl.Memory.Lexer
import HttpRuntime.Dsl.Memory.Parser
import HttpRuntime.Dsl.Memory.Statements
import HttpRuntime.Dsl.Memory.Tokens
import HttpRuntime.Dsl.Memory.Tracks
import HttpRuntime.Dsl.Parser.Basic
import HttpRuntime.Dsl.Parser.Blanks
import HttpRuntime.Dsl.Parser.Congruence
import HttpRuntime.Dsl.Parser.Correctness
import HttpRuntime.Dsl.Parser.Diagnosis
import HttpRuntime.Dsl.Parser.Moves
import HttpRuntime.Dsl.Parser.Phrases
import HttpRuntime.Dsl.Parser.Progress
import HttpRuntime.Dsl.Parser.Reads
import HttpRuntime.Dsl.Parser.Viable
import HttpRuntime.Dsl.Printer
import HttpRuntime.Dsl.Range
import HttpRuntime.Dsl.Termination
import HttpRuntime.Dsl.ValueWords
import HttpRuntime.Dsl.Written
import HttpRuntime.Lib.Automaton
import HttpRuntime.Lib.Block
import HttpRuntime.Lib.CInt
import HttpRuntime.Lib.CType
import HttpRuntime.Lib.Chain
import HttpRuntime.Lib.Decimal
import HttpRuntime.Lib.Fairness
import HttpRuntime.Lib.Fifo
import HttpRuntime.Lib.Heap
import HttpRuntime.Lib.History
import HttpRuntime.Lib.Ledger
import HttpRuntime.Lib.Loop
import HttpRuntime.Lib.Position
import HttpRuntime.Lib.Prog
import HttpRuntime.Lib.Scan
import HttpRuntime.Lib.Sections
import HttpRuntime.Lib.Serial
import HttpRuntime.Lib.Sql
import HttpRuntime.Lib.Vec
