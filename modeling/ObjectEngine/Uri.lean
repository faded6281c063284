import ObjectEngine.Text.Bytes
import ObjectEngine.Text.Split

/-!
# Credentials in connection addresses

User and password of an address are percent-encoded exactly once: escapes that are there are
decoded first, so escaping an escaped address changes nothing. An address without scheme or
credentials, or with several hosts, is left as it is. Hosts start after the last `@`, since
credentials may contain any character.
-/

namespace ObjectEngine

namespace Uri

/-- The bytes that stand for themselves in credentials. -/
def isUnreserved (b : UInt8) : Bool :=
  let c := Char.ofNat b.toNat
  c.isAlphanum || c = '-' || c = '.' || c = '_' || c = '~'

/-- The value of a hexadecimal digit. -/
def hexValue? (b : UInt8) : Option Nat := Hex.value? (Char.ofNat b.toNat)

/-- The byte that a percent sign and two digits stand for. -/
def escape? (percent hi lo : UInt8) : Option UInt8 := do
  guard (percent.toNat = 37)
  some (UInt8.ofNat ((← hexValue? hi) * 16 + (← hexValue? lo)))

/-- Decodes the escapes of a byte sequence; a percent sign without two digits is kept. -/
def percentDecode : List UInt8 → List UInt8
  | a :: b :: c :: rest =>
    match escape? a b c with
    | some byte => byte :: percentDecode rest
    | none => a :: percentDecode (b :: c :: rest)
  | bytes => bytes

/-- A hexadecimal digit, in upper case. -/
def hexDigit (n : Nat) : Char := (Hex.digit n).toUpper

/-- The text of a byte: itself or its escape. -/
def encodeByte (b : UInt8) : List Char :=
  if isUnreserved b then [Char.ofNat b.toNat]
  else ['%', hexDigit (b.toNat / 16), hexDigit (b.toNat % 16)]

/-- The text of a byte sequence. -/
def percentEncode (bytes : List UInt8) : String := String.ofList (bytes.flatMap encodeByte)

/-- Escapes a user or a password. -/
def escapeCredential (text : String) : String :=
  percentEncode (percentDecode text.toUTF8.toList)

/-- What stands before and after the scheme separator. -/
def splitScheme? : List Char → Option (List Char × List Char)
  | ':' :: '/' :: '/' :: rest => some ([], rest)
  | c :: rest => (splitScheme? rest).map fun (a, b) => (c :: a, b)
  | [] => none

/-- Whether the hosts at the start of a text are several. -/
def severalHosts (tail : List Char) : Bool :=
  (tail.takeWhile fun c => c ≠ '/' && c ≠ '?').contains ','

/-- Whether an address names several hosts. -/
def isMultiHost (uri : String) : Bool :=
  match splitScheme? uri.toList with
  | none => false
  | some (_, rest) =>
    match Text.splitLastChars '@' rest with
    | some (_, tail) => severalHosts tail
    | none => severalHosts rest

/-- Escapes the user and the password, which the first colon separates. -/
def escapeUserInfo (info : List Char) : String :=
  match Text.splitFirstChars ':' info with
  | some (user, password) =>
    escapeCredential (String.ofList user) ++ ":" ++ escapeCredential (String.ofList password)
  | none => escapeCredential (String.ofList info)

/-- Escapes the credentials of an address. -/
def escape (uri : String) : String :=
  match splitScheme? uri.toList with
  | none => uri
  | some (scheme, rest) =>
    match Text.splitLastChars '@' rest with
    | none => uri
    | some (info, tail) =>
      if severalHosts tail then uri
      else String.ofList scheme ++ "://" ++ escapeUserInfo info ++ "@" ++ String.ofList tail

end Uri

end ObjectEngine
