import Telemetry.Bysant.DecodeError
import Telemetry.Bysant.Decoder
import Telemetry.Bysant.Encoder
import Telemetry.Bysant.EnvelopeDecoder
import Telemetry.Bysant.Frame
import Telemetry.Bysant.Header
import Telemetry.Bysant.Json
import Telemetry.Bysant.Token
import Telemetry.Bysant.Value
import Telemetry.Bysant.Varint
import Telemetry.Bysant.Vector
import Telemetry.Bytes
import Telemetry.Command
import Telemetry.Crypto.Aes
import Telemetry.Crypto.Md5
import Telemetry.Crypto.P256
import Telemetry.Crypto.Sha1
import Telemetry.Device.Client
import Telemetry.Device.Credentials
import Telemetry.Device.Error
import Telemetry.Device.Negotiation
import Telemetry.Gateway.Admin
import Telemetry.Gateway.Basic
import Telemetry.Gateway.Connection
import Telemetry.Gateway.Http
import Telemetry.Gateway.Line
import Telemetry.Gateway.MediaType
import Telemetry.Gateway.Settings
import Telemetry.Gateway.Target
import Telemetry.Json.Basic
import Telemetry.Json.Numeral
import Telemetry.Json.Shape
import Telemetry.Json.Source
import Telemetry.Main
import Telemetry.Net.Address
import Telemetry.Number.Binary
import Telemetry.Number.Shortest
import Telemetry.Security.Checksum
import Telemetry.Security.Cipher
import Telemetry.Security.CryptoError
import Telemetry.Security.Entropy
import Telemetry.Security.KeyExchange
import Telemetry.Security.Profile
import Telemetry.Security.Stream
import Telemetry.Session.Authentication
import Telemetry.Session.Basic
import Telemetry.Session.Negotiation
import Telemetry.Store.Basic
import Telemetry.Store.Ingest
import Telemetry.Store.ProfileFile
import Telemetry.Table
import Telemetry.Text.Base64
import Telemetry.Text.Blank
import Telemetry.Text.Hex
import Telemetry.Text.Quoted
import Telemetry.Text.Unprintable
import Telemetry.Toml.Document
import Telemetry.Toml.Scalar
import Telemetry.Toml.Value
import Telemetry.Proofs.Bysant.Locality
import Telemetry.Proofs.Bysant.Chunks
import Telemetry.Proofs.Bysant.Scalars
import Telemetry.Proofs.Bysant.Representable
import Telemetry.Proofs.Bysant.Completeness
import Telemetry.Proofs.Bysant.Soundness
import Telemetry.Proofs.Bysant.RoundTrip
import Telemetry.Proofs.Bysant.Rewind
import Telemetry.Proofs.Gateway.Segmentation
import Telemetry.Proofs.Crypto.Aes
import Telemetry.Proofs.Security.Cipher
import Telemetry.Proofs.Session.Authentication
import Telemetry.Proofs.Gateway.Answers
import Telemetry.Proofs.Gateway.Exchange
import Telemetry.Proofs.Session.Judgement
import Telemetry.Proofs.Store.Profiles
import Telemetry.Proofs.Session.Negotiation
import Telemetry.Proofs.Session.Runs
import Telemetry.Proofs.Session.Rounds
import Telemetry.Proofs.Session.Continuity
import Telemetry.Proofs.Gateway.Handling
import Telemetry.Proofs.Gateway.History
import Telemetry.Proofs.Gateway.Admission
import Telemetry.Proofs.Gateway.Replies
import Telemetry.Proofs.Gateway.Nonces
import Telemetry.Proofs.Gateway.Attempts
import Telemetry.Proofs.Bysant.Grammar
import Telemetry.Proofs.Bysant.Descent
import Telemetry.Proofs.Bysant.Shortest
import Telemetry.Proofs.Bysant.Plain
import Telemetry.Proofs.Bysant.EnvelopeDecoder
import Telemetry.Proofs.Store.Clients
import Telemetry.Proofs.Gateway.Binding
import Telemetry.Proofs.Gateway.Delivery
import Telemetry.Proofs.Gateway.Sending
import Telemetry.Proofs.Gateway.Serving
import Telemetry.Proofs.Device.Requests
import Telemetry.Proofs.Device.Resynchronization
import Telemetry.Proofs.Bysant.Poisoning
import Telemetry.Proofs.Gateway.Outcomes
import Telemetry.Proofs.Gateway.Synchrony
import Telemetry.Proofs.Gateway.Replays
import Telemetry.Proofs.Bysant.Promptness
import Telemetry.Proofs.Bysant.Handover
import Telemetry.Proofs.Gateway.Business
import Telemetry.Proofs.Gateway.Reception
import Telemetry.Proofs.Gateway.Retention
import Telemetry.Proofs.Store.Eviction
import Telemetry.Proofs.Security.Inversion
import Telemetry.Proofs.Store.Stamps
import Telemetry.Proofs.Bysant.Samples
import Telemetry.Proofs.Bysant.Shifts
import Telemetry.Proofs.Device.Interpretation
import Telemetry.Proofs.Gateway.Grouping
import Telemetry.Proofs.Gateway.Placement
import Telemetry.Proofs.Bysant.Interchange
import Telemetry.Proofs.Json.Printing
import Telemetry.Proofs.Store.Persistence
import Telemetry.Proofs.Bysant.Complaints
import Telemetry.Proofs.Bysant.Extents
import Telemetry.Proofs.Bysant.Offsets
import Telemetry.Proofs.Bysant.Varint
import Telemetry.Proofs.Bysant.Edits
import Telemetry.Proofs.Bysant.Standing
