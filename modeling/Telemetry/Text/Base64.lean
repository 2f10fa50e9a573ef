import Telemetry.Bytes
/-!
# Base 64

Three bytes become four characters of a 64-letter alphabet; a last group of one or two bytes is
filled up with `=`.
-/

namespace Telemetry.Text

/-- The character of a six-bit number. -/
def base64Char (n : Nat) : Char :=
  if n < 26 then Char.ofNat (n + 65)
  else if n < 52 then Char.ofNat (n + 71)
  else if n < 62 then Char.ofNat (n - 4)
  else if n = 62 then '+'
  else '/'

/-- The characters of a byte string. -/
def base64Chars : Bytes → List Char
  | a :: b :: c :: rest =>
    let n := Bytes.toNat [a, b, c]
    base64Char (n >>> 18) :: base64Char (n >>> 12 % 64) :: base64Char (n >>> 6 % 64) ::
      base64Char (n % 64) :: base64Chars rest
  | [a, b] =>
    let n := Bytes.toNat [a, b, 0]
    [base64Char (n >>> 18), base64Char (n >>> 12 % 64), base64Char (n >>> 6 % 64), '=']
  | [a] =>
    let n := Bytes.toNat [a, 0, 0]
    [base64Char (n >>> 18), base64Char (n >>> 12 % 64), '=', '=']
  | [] => []

def base64 (b : Bytes) : String := String.ofList (base64Chars b)

end Telemetry.Text
