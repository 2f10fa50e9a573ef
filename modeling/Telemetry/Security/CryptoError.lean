import Telemetry.Security.Cipher
import Telemetry.Security.KeyExchange
/-!
# Errors of cryptography
-/

namespace Telemetry.Security

inductive CryptoError where
  | checksum (error : ChecksumError)
  | cipher (error : CipherError)
  | exchange (error : KeyExchangeError)
  deriving Repr, DecidableEq

def CryptoError.message : CryptoError → String
  | checksum error => s!"Checksum: {error.message}"
  | cipher error => s!"Cipher: {error.message}"
  | exchange error => s!"Key exchange: {error.message}"

end Telemetry.Security
