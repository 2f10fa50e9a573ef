import Telemetry.Bysant.Value
import Telemetry.Security.CryptoError
/-!
# Errors of a device
-/

namespace Telemetry

/-- What can go wrong on the side of a device. -/
inductive DeviceError where
  | missingHeader (key : Bysant.HeaderKey)
  | verificationFailed
  /-- There is no negotiation to go on with. -/
  | noNegotiation
  | crypto (error : Security.CryptoError)
  deriving Repr, DecidableEq

def DeviceError.message : DeviceError → String
  | missingHeader key => s!"missing header {key.name}"
  | verificationFailed => "server checksum verification failed"
  | noNegotiation => "no password negotiation in progress"
  | crypto error => s!"crypto failure: {error.message}"

end Telemetry
