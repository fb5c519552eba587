import DocumentServer.Codec.Encode
import DocumentServer.Main
import DocumentServer.Proofs.FrameStream
import DocumentServer.Script.Read
import DocumentServer.Text.Utf8
import DocumentServer.Value.Comparison
import DocumentServer.Value.Hash
import DocumentServer.Proofs.ScalarOrder
import DocumentServer.Proofs.ValueOrder
import DocumentServer.Proofs.Builder
import DocumentServer.Proofs.Reading
import DocumentServer.Proofs.Recognition
import DocumentServer.Proofs.Acceptance
import DocumentServer.Proofs.Nesting
import DocumentServer.Proofs.Layout
import DocumentServer.Proofs.Derivation
import DocumentServer.Proofs.RoundTrip
import DocumentServer.Proofs.RequestRoundTrip
import DocumentServer.Proofs.Serving
import DocumentServer.Proofs.Replies
import DocumentServer.Proofs.Gating
import DocumentServer.Proofs.LastError
import DocumentServer.Proofs.Keepers
import DocumentServer.Proofs.Strategies
import DocumentServer.Proofs.Separation
import DocumentServer.Proofs.Canonical
import DocumentServer.Proofs.RequestNormal
import DocumentServer.Proofs.ErrorTally
import DocumentServer.Proofs.EncodingEquality
import DocumentServer.Proofs.FrameSequence
import DocumentServer.Proofs.Handles
import DocumentServer.Proofs.Ledger
import DocumentServer.Proofs.Interning
import DocumentServer.Proofs.Accounting
import DocumentServer.Proofs.Doubles
import DocumentServer.Proofs.IntegerParts
import DocumentServer.Proofs.NumberOrder
import DocumentServer.Proofs.NearestDoubles
import DocumentServer.Proofs.Coercions
import DocumentServer.Proofs.Appending
import DocumentServer.Proofs.OrderedMap
import DocumentServer.Proofs.DeclaredLength
import DocumentServer.Proofs.DecodeErrors
import DocumentServer.Codec.Cursor
import DocumentServer.Proofs.CursorBounds
import DocumentServer.Proofs.Enrolment
import DocumentServer.Proofs.CommandReplies
import DocumentServer.Proofs.BuiltinCommands
import DocumentServer.Proofs.Sweeping
import DocumentServer.Proofs.Detachment
