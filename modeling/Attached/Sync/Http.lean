import Attached.Library.Effect
import Attached.Protocol.ApiJson
import Attached.Sync.Refresh

/-!
This module contains the synchronization client: its requests, how it reads the responses, and the
consistent fetch of a record over such requests.
-/

namespace Attached

/--
The credentials as the client uses them for its requests.
-/
structure ApiCredentials extends AccountCredentials where
  apiKeyScope : ApiKeyScope
  apiToken : ApiToken

def isHeaderText (byte : UInt8) : Bool :=
  0x20 ≤ byte && byte < 0x7f || byte == 0x09

def headerText (value : List UInt8) : Option (List UInt8) :=
  if value.all isHeaderText then some value else none

structure HttpResponse where
  status : Nat
  contentType : Option (List UInt8)
  etag : Option (List UInt8)
  contentLength : Option Nat
  /-- The chunks of the body, where `none` is an error of the stream. -/
  chunks : List (Option (List UInt8))

namespace HttpResponse

def statusOk : Nat := 200
def statusNotFound : Nat := 404

def maxErrorBodyBytes : Nat := 4096

def isBlank (byte : UInt8) : Bool :=
  byte == 0x20 || byte == 0x09

def trim (value : List UInt8) : List UInt8 :=
  ((value.dropWhile isBlank).reverse.dropWhile isBlank).reverse

def eqIgnoreAsciiCase (a b : List UInt8) : Bool :=
  a.map lower == b.map lower
where
  lower (byte : UInt8) : UInt8 :=
    if Bytes.isAsciiUppercase byte then byte + 0x20 else byte

def isJsonContentType (value : List UInt8) : Bool :=
  match headerText value with
  | none => false
  | some value =>
    eqIgnoreAsciiCase (trim (value.takeWhile (· != 0x3b))) (Bytes.ofString "application/json")

def ensureJson (response : HttpResponse) : Except String Unit :=
  Except.ensure (response.contentType.any isJsonContentType)
    "synchronization service returned an unexpected content type"

def unquote (value : List UInt8) : Option (List UInt8) := do
  let value ← Bytes.strip [0x22] value
  if value.getLast? = some 0x22 then some value.dropLast else none

def responseRevision (response : HttpResponse) : Except String Nat := do
  let value ← Except.okOr response.etag "synchronization response is missing ETag"
  let value ← Except.okOr (headerText value) "synchronization response has an invalid ETag"
  let digits ← Except.okOr (unquote value) "synchronization response has a malformed ETag"
  Except.ensure
    (!digits.isEmpty && digits != [0x30] && !(digits.length > 1 && digits.head? == some 0x30)
      && digits.all Bytes.isAsciiDigit)
    "synchronization response has a non-canonical ETag"
  let revision := digits.foldl (fun revision digit => revision * 10 + (digit.toNat - 48)) 0
  Except.ensure (revision ≤ u64Max) "ETag revision overflow"
  Except.ensure (revision ≤ i64Max) "ETag revision overflow"
  return revision

def boundedResponse.go (limit : Nat) (output : List UInt8) (chunks : List (Option (List UInt8)))
    : BodyRead String :=
  match chunks with
  | [] => ⟨.ok output, [], []⟩
  | none :: chunks => ⟨.error "could not read synchronization response", [], chunks⟩
  | some chunk :: chunks =>
    let next := output.length + chunk.length
    if next > u64Max then
      ⟨.error "synchronization response length overflow", [], chunks⟩
    else if next > limit then
      ⟨.error s!"synchronization response exceeds {limit} bytes", [], chunks⟩
    else
      (go limit (output ++ chunk) chunks).after (output ++ chunk)

def boundedResponse.trace (response : HttpResponse) (limit : Nat) : BodyRead String :=
  if response.contentLength.any (limit < ·) then
    ⟨.error s!"synchronization response exceeds {limit} bytes", [], response.chunks⟩
  else
    go limit [] response.chunks

def boundedResponse (response : HttpResponse) (limit : Nat) : Except String (List UInt8) :=
  (boundedResponse.trace response limit).result

/-- `service_error`, where `statusText` is the `Display` of a `StatusCode`. -/
def serviceError (statusText : Nat → String) (response : HttpResponse) : String :=
  let code :=
    if response.contentType.any isJsonContentType then do
      let body ← (response.boundedResponse maxErrorBodyBytes).toOption
      Json.parse body >>= ErrorCode.ofJson
    else
      none
  let code := (code.map fun code => " (" ++ code.debug ++ ")").getD ""
  "synchronization service returned HTTP " ++ statusText response.status ++ code

def listRecords (statusText : Nat → String) (response : HttpResponse)
    : Except String LiveRecordIndex := do
  Except.ensure (response.status = statusOk) (response.serviceError statusText)
  response.ensureJson
  let body ← response.boundedResponse maxApiBodyBytes
  (parseLiveRecordIndex body).mapError fun _ => "invalid live-record index"

/-- `Envelope::parse_json`, whose envelopes keep the limit on the ciphertext. -/
def fetchedRecord (revision : Nat) (body : List UInt8) : Except String FetchedRecord :=
  match h : Envelope.parseJson body with
  | .error _ => .error "invalid synchronized record envelope"
  | .ok envelope => .ok ⟨envelope, revision, Envelope.length_le_of_parseJson h⟩

def getRecord (statusText : Nat → String) (response : HttpResponse)
    : Except String (Option FetchedRecord) := do
  if response.status = statusNotFound then
    return none
  Except.ensure (response.status = statusOk) (response.serviceError statusText)
  response.ensureJson
  let revision ← response.responseRevision
  let body ← response.boundedResponse maxApiBodyBytes
  return some (← fetchedRecord revision body)

end HttpResponse

structure HttpRequest where
  url : List UInt8
  authorization : List UInt8
  deriving DecidableEq

inductive Exchange where
  | get (request : HttpRequest) (response : Option HttpResponse)
  | list (request : HttpRequest) (response : Option HttpResponse)

def Exchange.isGet (exchange : Exchange) : Bool :=
  match exchange with
  | .get .. => true
  | .list .. => false

def Exchange.isList (exchange : Exchange) : Bool :=
  !exchange.isGet

/--
A client in front of a service that answers with the responses of an arbitrary sequence.
-/
structure SyncHttpClient where
  respond : Nat → Option HttpResponse
  statusText : Nat → String

namespace SyncHttpClient

def bearerValue (account : ApiCredentials) : List UInt8 :=
  Bytes.ofString "Bearer " ++ account.apiToken.encode

def authorization (account : ApiCredentials) : Except String (List UInt8) := do
  let value := bearerValue account
  Except.ensure (value.all fun byte => 0x20 ≤ byte && byte != 0x7f || byte == 0x09)
    "invalid synchronization credential"
  return value

def recordsUrl (account : ApiCredentials) : List UInt8 :=
  Bytes.ofString account.serviceOrigin ++ Bytes.ofString "/v1/accounts/"
    ++ account.accountId.hyphenated ++ Bytes.ofString "/records"

def recordUrl (account : ApiCredentials) (recordId : RecordId) : List UInt8 :=
  recordsUrl account ++ Bytes.ofString "/" ++ recordId.encode

def send (client : SyncHttpClient) (exchange : Option HttpResponse → Exchange)
    : Effect (List Exchange) String (Option HttpResponse) := do
  let log ← Effect.get
  let response := client.respond log.length
  Effect.set (log ++ [exchange response])
  return response

def listRecords (client : SyncHttpClient) (account : ApiCredentials)
    : Effect (List Exchange) String LiveRecordIndex := do
  Effect.lift
    (Except.ensure (account.apiKeyScope = .download)
      "a download API key is required to list synchronized records")
  let value ← Effect.lift (authorization account)
  let response ← client.send (.list ⟨recordsUrl account, value⟩)
  let response ←
    Effect.lift (Except.okOr response "could not fetch synchronized record index")
  Effect.lift (response.listRecords client.statusText)

def getRecord (client : SyncHttpClient) (account : ApiCredentials) (recordId : RecordId)
    : Effect (List Exchange) String (Option FetchedRecord) := do
  Effect.lift
    (Except.ensure (account.apiKeyScope = .download)
      "a download API key is required to fetch synchronized records")
  let value ← Effect.lift (authorization account)
  let response ← client.send (.get ⟨recordUrl account recordId, value⟩)
  let response ← Effect.lift (Except.okOr response "could not fetch synchronized record")
  Effect.lift (response.getRecord client.statusText)

def context {α : Type} (x : Effect (List Exchange) String α) (message : String)
    : Effect (List Exchange) String α := do
  let result ← x.attempt
  Effect.lift (result.mapError fun _ => message)

def fetchConsistentRecord.go (client : SyncHttpClient) (account : ApiCredentials)
    (indexed : LiveRecordIndexEntry) (remaining : Nat)
    : Effect (List Exchange) String (Option FetchedRecord) :=
  match remaining with
  | 0 => Effect.lift (.error "record kept changing after 3 fetch attempts")
  | remaining + 1 => do
    match ← client.getRecord account indexed.recordId with
    | none => return none
    | some fetched =>
      Effect.lift
        (Except.ensure (indexed.revision ≤ fetched.revision)
          "record revision moved backwards during refresh")
      if fetched.revision = indexed.revision then
        return some fetched
      let index ←
        context (client.listRecords account) "could not recheck the synchronized record index"
      match index.records.find? fun entry => entry.recordId == indexed.recordId with
      | none => return none
      | some current =>
        Effect.lift
          (Except.ensure (fetched.revision ≤ current.revision)
            "record index moved backwards during refresh")
        if current.revision = fetched.revision then
          return some fetched
        go client account current remaining

def fetchConsistentRecord (client : SyncHttpClient) (account : ApiCredentials)
    (indexed : LiveRecordIndexEntry) : Effect (List Exchange) String (Option FetchedRecord) :=
  fetchConsistentRecord.go client account indexed maxRecordFetchAttempts

end SyncHttpClient

end Attached
