import Attached.Library.Base64
import Attached.Library.Except
import Attached.Library.IpAddr
import Attached.Library.Json
import Attached.Protocol.Basic

/-!
This module contains the credentials of an account: its identifiers, tokens and keys with their
textual forms, and the origins a service may have.
-/

namespace Attached

inductive AccountError where
  | invalidIdentifier
  | invalidBearer
  | invalidAuthorization
  | invalidOrigin
  | invalidBundle
  deriving DecidableEq

inductive Host where
  | domain (name : List UInt8)
  | ipv4 (ip : IpAddr.V4)
  | ipv6 (ip : IpAddr.V6)
  deriving DecidableEq

structure Url where
  scheme : List UInt8
  username : List UInt8
  password : Option (List UInt8)
  host : Option Host
  port : Option UInt16
  path : List UInt8
  query : Option (List UInt8)
  fragment : Option (List UInt8)

/--
The parts of `url`, `sha2` and `ed25519_dalek` that credentials rely on. All results hold for
whatever they compute.
-/
structure AccountCrates where
  urlParse : List UInt8 → Option Url
  sha256 : List UInt8 → Vector UInt8 32
  verifyingKey : Vector UInt8 32 → Vector UInt8 32

def apiTokenHashDomain : List UInt8 :=
  Bytes.ofString "herdr/session-sync/api-token/v1\x00"

def legacyConsumerIdentityDomain : List UInt8 :=
  Bytes.ofString "herdr/session-sync/legacy-consumer-identity/v1\x00"

def domainHash (crates : AccountCrates) (domain : List UInt8) (parts : List (List UInt8))
    : Vector UInt8 32 :=
  crates.sha256 (domain ++ parts.flatten)

def toFixed (n : Nat) (bs : List UInt8) : Option (Vector UInt8 n) :=
  if h : bs.length = n then some ⟨bs.toArray, Bytes.size_toArray h⟩ else none

theorem toFixed_eq_some_iff {n : Nat} {bs : List UInt8} {v : Vector UInt8 n}
    : toFixed n bs = some v ↔ bs = v.toList := by
  unfold toFixed
  split
  . next h =>
    rw [Option.some.injEq]
    constructor
    . rintro rfl
      simp
    . intro heq
      apply Vector.toList_inj.mp
      rw [← heq]
      simp
  . next h =>
    constructor
    . simp
    . rintro rfl
      simp at h

namespace AccountId

def hyphenated (id : AccountId) : List UInt8 :=
  let text := Bytes.hex id.bytes.toList
  text.take 8
    ++ [0x2d] ++ (text.drop 8).take 4
    ++ [0x2d] ++ (text.drop 12).take 4
    ++ [0x2d] ++ (text.drop 16).take 4
    ++ [0x2d] ++ text.drop 20

/--
`Uuid::parse_str` on a text of 36 bytes, which can only be the hyphenated form.
-/
def parseStr (value : List UInt8) : Option AccountId := do
  if value[8]? = some 0x2d ∧ value[13]? = some 0x2d ∧ value[18]? = some 0x2d
      ∧ value[23]? = some 0x2d then
    let bytes ←
      Bytes.unhex (value.take 8 ++ (value.drop 9).take 4 ++ (value.drop 14).take 4
        ++ (value.drop 19).take 4 ++ value.drop 24)
    let bytes ← toFixed 16 bytes
    return ⟨bytes⟩
  else
    none

def parse (value : List UInt8) : Except AccountError AccountId := do
  Except.ensure (!(value.length != 36)) .invalidIdentifier
  let uuid ← Except.okOr (parseStr value) .invalidIdentifier
  Except.ensure (!(uuid.hyphenated != value || !uuid.isUuidV7)) .invalidIdentifier
  return uuid

end AccountId

def RecordId.parse (value : List UInt8) : Except AccountError RecordId := do
  Except.ensure (!(value.length != identifierTextLen || value.contains 0x3d)) .invalidIdentifier
  let decoded ← Except.okOr (Base64.decode value) .invalidIdentifier
  let bytes ← Except.okOr (toFixed 16 decoded) .invalidIdentifier
  Except.ensure (!(Base64.encode bytes.toList != value)) .invalidIdentifier
  return ⟨bytes⟩

def RecordId.encode (id : RecordId) : List UInt8 :=
  Base64.encode id.bytes.toList

structure AuthorizedConsumerIdentity where
  bytes : Vector UInt8 32
  deriving DecidableEq

structure ConsumerIdentitySecret where
  bytes : Vector UInt8 32
  deriving DecidableEq

def ConsumerIdentitySecret.authorizedIdentity (crates : AccountCrates)
    (secret : ConsumerIdentitySecret) : AuthorizedConsumerIdentity :=
  ⟨crates.verifyingKey secret.bytes⟩

structure AccountRootKey where
  bytes : Vector UInt8 32
  deriving DecidableEq

structure ApiToken where
  bytes : Vector UInt8 32
  deriving DecidableEq

/--
`URL_SAFE_NO_PAD.decode_slice` into a buffer of 32 bytes that has to be filled.
-/
def decodeSecret (input : List UInt8) : Option (Vector UInt8 32) :=
  Base64.decode input >>= toFixed 32

def decodeBundleSecret (input : List UInt8) : Except AccountError (Vector UInt8 32) := do
  Except.ensure (!(input.length != secretTextLen)) .invalidBundle
  let decoded ← Except.okOr (decodeSecret input) .invalidBundle
  Except.ensure (!(Base64.encode decoded.toList != input)) .invalidBundle
  return decoded

def decodeApiToken (input : List UInt8) : Except AccountError ApiToken := do
  Except.ensure
    (!(input.length != secretTextLen
      || !input.all fun byte => Bytes.isAsciiAlphanumeric byte || byte == 0x2d || byte == 0x5f))
    .invalidBearer
  let decoded ← Except.okOr (decodeSecret input) .invalidBearer
  Except.ensure (!(Base64.encode decoded.toList != input)) .invalidBearer
  return ⟨decoded⟩

namespace ApiToken

def parseBare (value : List UInt8) : Except AccountError ApiToken :=
  decodeApiToken value

def parseAuthorization (values : List (List UInt8)) : Except AccountError ApiToken :=
  match values with
  | [value] => do
    Except.ensure (!(value.length != 50 || !(Bytes.ofString "Bearer ").isPrefixOf value))
      .invalidAuthorization
    let _ ← Except.okOr (Bytes.toString? (value.drop 7)) .invalidAuthorization
    (parseBare (value.drop 7)).mapError fun _ => .invalidAuthorization
  | _ => .error .invalidAuthorization

def encode (token : ApiToken) : List UInt8 :=
  Base64.encode token.bytes.toList

def serviceHash (crates : AccountCrates) (token : ApiToken) : Vector UInt8 32 :=
  domainHash crates apiTokenHashDomain [token.bytes.toList]

end ApiToken

namespace ServiceOrigin

inductive StrictHost where
  | dns
  | v4 (ip : IpAddr.V4)
  | v6 (ip : IpAddr.V6)
  deriving DecidableEq

def splitAuthority (value : List UInt8)
    : Except AccountError (List UInt8 × Option (List UInt8)) := do
  if value.head? = some 0x5b then
    let stop ← Except.okOr (value.idxOf? 0x5d) .invalidOrigin
    let host := value.take (stop + 1)
    let rest := value.drop (stop + 1)
    if rest.isEmpty then
      return (host, none)
    else
      let port ← Except.okOr (Bytes.strip [0x3a] rest) .invalidOrigin
      return (host, some port)
  else
    match value.idxOf? 0x3a with
    | none => return (value, none)
    | some colon =>
      let port := value.drop (colon + 1)
      Except.ensure (!port.contains 0x3a) .invalidOrigin
      return (value.take colon, some port)

def parsePort (value : List UInt8) : Except AccountError UInt16 := do
  Except.ensure
    (!(value.isEmpty || !value.all Bytes.isAsciiDigit
      || value.length > 1 && value.head? == some 0x30))
    .invalidOrigin
  let port := value.foldl (fun port digit => port * 10 + (digit.toNat - 48)) 0
  Except.ensure (port < 65536) .invalidOrigin
  Except.ensure (!(port == 0)) .invalidOrigin
  return UInt16.ofNat port

def parseCanonicalIpv4 (value : List UInt8) : Except AccountError IpAddr.V4 := do
  let parts := value.splitOn 0x2e
  Except.ensure
    (parts.length == 4
      && !parts.any fun part => part.isEmpty || part.length > 1 && part.head? == some 0x30)
    .invalidOrigin
  let ip ← Except.okOr (IpAddr.V4.fromStr value) .invalidOrigin
  Except.ensure (!(ip.toText != value)) .invalidOrigin
  return ip

def validateDns (value : List UInt8) : Except AccountError Unit := do
  Except.ensure
    (!(value.isEmpty || value.length > 253 || value.getLast? == some 0x2e
      || value.head? == some 0x2e))
    .invalidOrigin
  Except.ensure
    (!(value.splitOn 0x2e).any fun label =>
      label.isEmpty || label.length > 63 || (Bytes.ofString "xn--").isPrefixOf label
        || label.head? == some 0x2d || label.getLast? == some 0x2d
        || !label.all fun byte =>
            Bytes.isAsciiLowercase byte || Bytes.isAsciiDigit byte || byte == 0x2d)
    .invalidOrigin

def splitScheme (value : List UInt8) : Except AccountError (Bool × List UInt8) :=
  match Bytes.strip (Bytes.ofString "https://") value with
  | some rest => .ok (true, rest)
  | none =>
    match Bytes.strip (Bytes.ofString "http://") value with
    | some rest => .ok (false, rest)
    | none => .error .invalidOrigin

def parseHost (host : List UInt8) : Except AccountError StrictHost := do
  if host.head? = some 0x5b then
    Except.ensure (host.getLast? == some 0x5d) .invalidOrigin
    let inner := (host.drop 1).dropLast
    let ip ← Except.okOr (IpAddr.V6.fromStr inner) .invalidOrigin
    Except.ensure (!(ip.toText != inner || ip.toIpv4Mapped.isSome || ip.isUnspecified))
      .invalidOrigin
    return .v6 ip
  else if host.all fun byte => Bytes.isAsciiDigit byte || byte == 0x2e then
    let ip ← parseCanonicalIpv4 host
    Except.ensure (!ip.isUnspecified) .invalidOrigin
    return .v4 ip
  else
    validateDns host
    Except.ensure (!(host == Bytes.ofString "localhost")) .invalidOrigin
    return .dns

def isForbidden (byte : UInt8) : Bool :=
  byte ≤ 0x20 || byte == 0x7f || byte == 0x25 || byte == 0x5c || byte == 0x2f || byte == 0x3f
    || byte == 0x23 || byte == 0x40

def sameHost (strictHost : StrictHost) (host : List UInt8) (parsed : Option Host) : Bool :=
  match strictHost, parsed with
  | .dns, some (.domain actual) => actual == host
  | .v4 expected, some (.ipv4 actual) => expected == actual
  | .v6 expected, some (.ipv6 actual) => expected == actual
  | _, _ => false

def check (crates : AccountCrates) (value : List UInt8) : Except AccountError Unit := do
  Except.ensure (!(value.isEmpty || value.length > 253 + 8 + 6 || !Bytes.isAscii value))
    .invalidOrigin
  let (https, authority) ← splitScheme value
  Except.ensure (!authority.any isForbidden) .invalidOrigin
  let (host, portText) ← splitAuthority authority
  let port ← portText.mapM parsePort
  Except.ensure (!(https && port == some 443 || !https && port == some 80)) .invalidOrigin
  Except.ensure (!(!https && port.isNone)) .invalidOrigin
  let strictHost ← parseHost host
  Except.ensure
    (!(!https && strictHost != .v4 IpAddr.V4.localhost && strictHost != .v6 IpAddr.V6.localhost))
    .invalidOrigin
  let parsed ← Except.okOr (crates.urlParse value) .invalidOrigin
  Except.ensure
    (!(parsed.scheme != Bytes.ofString (if https then "https" else "http")
      || !parsed.username.isEmpty || parsed.password.isSome || parsed.path != [0x2f]
      || parsed.query.isSome || parsed.fragment.isSome))
    .invalidOrigin
  Except.ensure (!(!sameHost strictHost host parsed.host || parsed.port != port)) .invalidOrigin

end ServiceOrigin

structure ServiceOrigin (crates : AccountCrates) where
  text : List UInt8
  valid : ServiceOrigin.check crates text = .ok ()
  deriving DecidableEq

def ServiceOrigin.parse (crates : AccountCrates) (value : List UInt8)
    : Except AccountError (ServiceOrigin crates) :=
  match h : check crates value with
  | .ok () => .ok ⟨value, h⟩
  | .error e => .error e

/-! The credentials that the tests of the source use, with what the crates compute on them. -/
namespace Fixture

def origin : List UInt8 :=
  Bytes.ofString "https://sync.example"

def testAccountId : AccountId :=
  ⟨#v[1, 137, 15, 158, 123, 58, 124, 194, 152, 200, 77, 192, 203, 210, 187, 242]⟩

def publishToken : ApiToken := ⟨Vector.replicate 32 1⟩

def downloadToken : ApiToken := ⟨Vector.replicate 32 2⟩

def rootKey : AccountRootKey := ⟨Vector.replicate 32 3⟩

def publishHash : Vector UInt8 32 :=
  #v[245, 143, 245, 219, 152, 65, 119, 154, 140, 143, 27, 239, 193, 89, 167, 239, 95, 37, 58, 93, 241,
    86, 192, 184, 95, 63, 171, 7, 148, 141, 190, 30]

def downloadHash : Vector UInt8 32 :=
  #v[185, 7, 190, 175, 250, 33, 208, 45, 156, 95, 142, 64, 46, 138, 1, 204, 116, 98, 147, 216, 236,
    134, 24, 49, 88, 11, 76, 141, 215, 52, 124, 127]

def legacySecret : Vector UInt8 32 :=
  #v[118, 0, 206, 85, 195, 224, 247, 40, 25, 89, 180, 155, 106, 179, 119, 128, 139, 158, 171, 152, 42,
    137, 101, 38, 231, 44, 223, 117, 183, 253, 190, 205]

def accountCrates : AccountCrates where
  urlParse text :=
    if text = origin then
      some {
        scheme := Bytes.ofString "https"
        username := []
        password := none
        host := some (.domain (Bytes.ofString "sync.example"))
        port := none
        path := Bytes.ofString "/"
        query := none
        fragment := none
      }
    else
      none
  sha256 input :=
    if input = apiTokenHashDomain ++ publishToken.bytes.toList then
      publishHash
    else if input = apiTokenHashDomain ++ downloadToken.bytes.toList then
      downloadHash
    else if input = legacyConsumerIdentityDomain ++ rootKey.bytes.toList then
      legacySecret
    else
      Vector.replicate 32 0
  verifyingKey _ :=
    #v[8, 138, 254, 117, 83, 62, 155, 112, 152, 108, 108, 116, 197, 74, 244, 86, 101, 202, 102, 56,
      21, 174, 89, 26, 55, 232, 80, 21, 58, 41, 5, 223]

end Fixture

end Attached
