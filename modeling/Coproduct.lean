import Coproduct.Encoding.Literal
import Coproduct.Session.Run
import Coproduct.Proofs.Obtainable
import Coproduct.Proofs.Matching.Dispatch
import Coproduct.Proofs.Matching.HandlerMap
import Coproduct.Proofs.Matching.Coverage
import Coproduct.Proofs.Bundle.Access
import Coproduct.Proofs.Text.ByteOrder
import Coproduct.Proofs.Session.BundleUse
import Coproduct.Proofs.Session.Caches
import Coproduct.Proofs.Session.Identity
import Coproduct.Proofs.Json.Framing
import Coproduct.Proofs.Decoding.Routes
import Coproduct.Proofs.Binary.Rounding
import Coproduct.Proofs.Decimal.Digits
import Coproduct.Proofs.Decimal.Shortest
import Coproduct.Proofs.Json.Numeral
import Coproduct.Proofs.Json.Lexing
import Coproduct.Proofs.Json.ReadBack
import Coproduct.Proofs.Decoding.RoundTrip
import Coproduct.Proofs.Bundle.Serialization
import Coproduct.Proofs.Matching.Handed
import Coproduct.Proofs.Session.Declared
import Coproduct.Proofs.Bundle.Validation
import Coproduct.Proofs.Session.WithoutBundles
import Coproduct.Proofs.RawForm
import Coproduct.Proofs.Matching.Descent
import Coproduct.Proofs.Matching.Nesting
import Coproduct.Proofs.Matching.Arrangement
import Coproduct.Proofs.Matching.Verdict
import Coproduct.Proofs.Matching.Lookup
import Coproduct.Proofs.Matching.Flavours
import Coproduct.Proofs.Unordered
import Coproduct.Proofs.Rejections
import Coproduct.Proofs.Matching.Reports
import Coproduct.Proofs.Payloads
