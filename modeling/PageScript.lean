import PageScript.Cli.Program
import PageScript.Main
import PageScript.Proofs.Calls
import PageScript.Proofs.Delivery
import PageScript.Proofs.Lexing
import PageScript.Proofs.Grammar
import PageScript.Proofs.GrammarLexing
import PageScript.Proofs.Grouping
import PageScript.Proofs.TokenLists
import PageScript.Proofs.SourceCommands
import PageScript.Proofs.Dispatch
import PageScript.Proofs.Running
import PageScript.Proofs.Decoding
import PageScript.Proofs.Layout
import PageScript.Proofs.LayoutLexing
import PageScript.Proofs.RoundTrip
import PageScript.Proofs.Causality
import PageScript.Proofs.LaterLines
import PageScript.Proofs.Concatenation
import PageScript.Proofs.Dimensions
import PageScript.Proofs.StartPage
import PageScript.Proofs.CommandLine
import PageScript.Proofs.Flags
import PageScript.Proofs.CheckAndRun
import PageScript.Proofs.Histories
import PageScript.Proofs.ReadingLines
import PageScript.Proofs.EqualDelivery
import PageScript.Proofs.Characters
import PageScript.Proofs.TomlDocuments
import PageScript.Proofs.ConfigRoundTrip
import PageScript.Proofs.LineOrder
import PageScript.Proofs.RunBehindSteps
import PageScript.Proofs.EventTrace
import PageScript.Proofs.Checkpoint
import PageScript.Proofs.DimensionFaults
import PageScript.Proofs.ReachableSettings
import PageScript.Proofs.TextLines
import PageScript.Proofs.ByteOrder
import PageScript.Proofs.Registrations
import PageScript.Proofs.PathEnds
import PageScript.Proofs.TreeKinds
import PageScript.Proofs.MadeDirectories
import PageScript.Proofs.SavedOrNot
import PageScript.Proofs.IllFormed
import PageScript.Proofs.WaitingTokens
