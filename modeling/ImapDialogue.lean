import ImapDialogue.Channel.Run
import ImapDialogue.FileTree.Growth
import ImapDialogue.FileTree.Listing
import ImapDialogue.Main
import ImapDialogue.Proofs.Literal
import ImapDialogue.Proofs.Literal.Between
import ImapDialogue.Proofs.Pattern.Reading
import ImapDialogue.Proofs.Pattern.Fitting
import ImapDialogue.Proofs.Search
import ImapDialogue.Proofs.Search.Leftmost
import ImapDialogue.Proofs.Search.Resuming
import ImapDialogue.Proofs.Search.Skipping
import ImapDialogue.Proofs.Wire.Cursor
import ImapDialogue.Proofs.Wire.Line
import ImapDialogue.Proofs.Wire.Cutting
import ImapDialogue.Proofs.Response.Progress
import ImapDialogue.Proofs.Response.Places
import ImapDialogue.Proofs.Response.Agreement
import ImapDialogue.Proofs.Response.Joining
import ImapDialogue.Proofs.Response.Accounting
import ImapDialogue.Proofs.Response.Modes
import ImapDialogue.Proofs.Response.Transcript
import ImapDialogue.Proofs.Response.Recovery
import ImapDialogue.Proofs.Response.Arguments
import ImapDialogue.Proofs.Channel.Hearing
import ImapDialogue.Proofs.Channel.Closing
import ImapDialogue.Proofs.Channel.Conservation
import ImapDialogue.Proofs.Channel.Guarding
import ImapDialogue.Proofs.Channel.Incidents
import ImapDialogue.Proofs.Channel.Ending
import ImapDialogue.Proofs.Channel.Settling
import ImapDialogue.Proofs.Channel.Alarms
import ImapDialogue.Proofs.Channel.Aftermath
import ImapDialogue.Proofs.Channel.Searching
import ImapDialogue.Proofs.Channel.Sparing
import ImapDialogue.Proofs.Client.Core
import ImapDialogue.Proofs.Client.Waiting
import ImapDialogue.Proofs.Client.Fetching
import ImapDialogue.Proofs.Client.Following
import ImapDialogue.Proofs.Client.Asking
import ImapDialogue.Proofs.Client.Books
import ImapDialogue.Proofs.Client.Tally
import ImapDialogue.Proofs.Client.Account
import ImapDialogue.Proofs.Client.Patience
import ImapDialogue.Proofs.Client.Veil
import ImapDialogue.Proofs.Client.Isolation
import ImapDialogue.Proofs.Exchange.Finishing
import ImapDialogue.Proofs.Exchange.Reaching
import ImapDialogue.Proofs.Exchange.Ledger
import ImapDialogue.Proofs.Exchange.Chronicle
import ImapDialogue.Proofs.Exchange.Attribution
import ImapDialogue.Proofs.Exchange.Reporting
import ImapDialogue.Proofs.Exchange.Punctuality
import ImapDialogue.Proofs.Exchange.Veil
import ImapDialogue.Proofs.Exchange.Twins
import ImapDialogue.Proofs.Session.Commands
import ImapDialogue.Proofs.Session.Gating
import ImapDialogue.Proofs.Session.Lines
import ImapDialogue.Proofs.Session.Secrecy
import ImapDialogue.Proofs.Session.Timeouts
import ImapDialogue.Proofs.Literal.Expression
import ImapDialogue.Proofs.Literal.Scanner
import ImapDialogue.Proofs.FileTree.Walking
import ImapDialogue.Proofs.Response.Headers
import ImapDialogue.Proofs.Session.LockRemoval
import ImapDialogue.Proofs.Number.Spelling
import ImapDialogue.Proofs.Number.Nearest
import ImapDialogue.Proofs.Loop
import ImapDialogue.Proofs.Search.Rounds
import ImapDialogue.Proofs.Response.Moving
import ImapDialogue.Proofs.Response.Rounds
