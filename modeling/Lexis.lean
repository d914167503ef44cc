import Lexis.Command.Basic
import Lexis.Command.Listing
import Lexis.Command.Reply
import Lexis.Command.Toolkit
import Lexis.Diagnostic
import Lexis.Encoding.Basic
import Lexis.Encoding.Decoder
import Lexis.Encoding.Utf8
import Lexis.Encoding.Writable
import Lexis.Event
import Lexis.Failure
import Lexis.FileTree
import Lexis.Kind
import Lexis.Location
import Lexis.Main
import Lexis.Options
import Lexis.Path
import Lexis.Proofs.Calls
import Lexis.Proofs.Canonical
import Lexis.Proofs.Continuation
import Lexis.Proofs.Decoding
import Lexis.Proofs.Disturbance
import Lexis.Proofs.Division
import Lexis.Proofs.FailFast
import Lexis.Proofs.FileText
import Lexis.Proofs.Forms
import Lexis.Proofs.Growth
import Lexis.Proofs.Interning
import Lexis.Proofs.Likeness
import Lexis.Proofs.LineBreak
import Lexis.Proofs.Lines
import Lexis.Proofs.Listing
import Lexis.Proofs.Lockstep
import Lexis.Proofs.Lookahead
import Lexis.Proofs.Marker
import Lexis.Proofs.Newcomers
import Lexis.Proofs.Piece
import Lexis.Proofs.Place
import Lexis.Proofs.Pointing
import Lexis.Proofs.Printing
import Lexis.Proofs.Progress
import Lexis.Proofs.ReadFailure
import Lexis.Proofs.Readings
import Lexis.Proofs.Reads
import Lexis.Proofs.Release
import Lexis.Proofs.Rows
import Lexis.Proofs.Scan
import Lexis.Proofs.Sharing
import Lexis.Proofs.Stamping
import Lexis.Proofs.Standing
import Lexis.Proofs.StateMachine
import Lexis.Proofs.Stepping
import Lexis.Proofs.Tiling
import Lexis.Proofs.Tokenizing
import Lexis.Proofs.Undecodable
import Lexis.Proofs.Unfailing
import Lexis.Proofs.Upheld
import Lexis.Proofs.Utf8
import Lexis.Reader
import Lexis.Scanner.Basic
import Lexis.Scanner.Lexeme
import Lexis.Scanner.Run
import Lexis.Source
import Lexis.Stream
import Lexis.Symbol
import Lexis.Terminal.Arguments
import Lexis.Terminal.Basic
import Lexis.Text.Blank
import Lexis.Text.ControlSequence
import Lexis.Text.Digit
import Lexis.Text.Hex
import Lexis.Text.Layout
import Lexis.Text.Letter
import Lexis.Text.Numeral
import Lexis.Text.Printable
import Lexis.Text.Quoted
import Lexis.Text.Ranges
import Lexis.Text.Similarity
import Lexis.Token
import Lexis.Workspace
