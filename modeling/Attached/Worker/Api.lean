import Attached.Protocol.ApiJson
import Attached.Worker.Storage

/-!
This module contains the requests to an account object: their routes, how they are authenticated and
what the object answers.
-/

namespace Attached

inductive Method where
  | get
  | put
  | post
  | other
  deriving DecidableEq

inductive Route where
  | initializeAccount
  | recordIndex (accountId : List UInt8)
  | record (accountId recordId : List UInt8)
  | fallback
  deriving DecidableEq

namespace Route

def accountId (route : Route) : Option (List UInt8) :=
  match route with
  | .recordIndex accountId => some accountId
  | .record accountId _ => some accountId
  | _ => none

def recordId (route : Route) : Option (List UInt8) :=
  match route with
  | .record _ recordId => some recordId
  | _ => none

end Route

structure Request where
  method : Method
  route : Route
  authorization : List (List UInt8)
  contentLength : Option (List UInt8)
  oversized : Bool
  /-- The chunks of the body, where `none` is an error of the stream. -/
  body : Option (List (Option (List UInt8)))
  cancels : Bool

structure Response where
  status : Nat
  headers : List (String × String)
  body : List UInt8
  deriving DecidableEq

namespace Response

def statusOk : Nat := 200
def statusCreated : Nat := 201
def statusNoContent : Nat := 204
def statusBadRequest : Nat := 400
def statusUnauthorized : Nat := 401
def statusNotFound : Nat := 404
def statusConflict : Nat := 409
def statusPayloadTooLarge : Nat := 413
def statusTooManyRequests : Nat := 429
def statusUnavailable : Nat := 503

def setHeader (response : Response) (name value : String) : Response :=
  { response with headers := response.headers.filter (·.1 != name) ++ [(name, value)] }

def noStore (response : Response) : Response :=
  response.setHeader "cache-control" "no-store"

def etag (response : Response) (revision : Nat) : Response :=
  response.setHeader "etag" ("\"" ++ toString revision ++ "\"")

def json (status : Nat) (value : Json) : Response :=
  noStore ⟨status, [("content-type", "application/json")], value.print⟩

def error (status : Nat) (code : ErrorCode) : Response :=
  json status code.toJson

def empty (status : Nat) : Response :=
  noStore ⟨status, [], []⟩

def unauthorized : Response :=
  (empty statusUnauthorized).setHeader "www-authenticate" "Bearer realm=\"attached-sync-v1\""

def unavailable : Response :=
  (error statusUnavailable .unavailable).setHeader "retry-after" "1"

def mutationSuccess (outcome : MutationOutcome) : Response :=
  match outcome with
  | .created revision => (empty statusCreated).etag revision
  | .updated revision => (empty statusNoContent).etag revision

def mutationError (error : MutationError) : Response :=
  match error with
  | .invalidRequest => Response.error statusBadRequest .invalidRequest
  | .liveQuotaExceeded =>
    (Response.error statusTooManyRequests .quotaExceeded).setHeader "retry-after" "60"
  | .revisionOverflow => unavailable
  | .invalidStorage => unavailable

end Response

/-- An operation of the runtime failed, `AccountObject::fetch` turns it into a response. -/
inductive WorkerError where
  | cancel
  deriving DecidableEq

inductive BodyReadError where
  | tooLarge
  | unavailable
  deriving DecidableEq

inductive AuthenticationError where
  | unauthorized
  | unavailable
  deriving DecidableEq

inductive AccountOperation where
  | listRecords
  | getRecord (recordId : RecordId)
  | putRecord (recordId : RecordId)
  deriving DecidableEq

def AccountOperation.scope (operation : AccountOperation) : ApiKeyScope :=
  match operation with
  | .listRecords => .download
  | .getRecord _ => .download
  | .putRecord _ => .publish

def parseU64 (text : List UInt8) : Option Nat :=
  let digits := if text.head? = some 0x2b then text.tail else text
  let value := digits.foldl (fun value digit => value * 10 + (digit.toNat - 48)) 0
  if digits.isEmpty || !digits.all Bytes.isAsciiDigit || value > u64Max then none else some value

/--
`Headers::get` combines the values of a field.
-/
def headerValue (values : List (List UInt8)) : Option (List UInt8) :=
  match values with
  | [] => none
  | value :: values => some (value ++ values.flatMap fun value => [0x2c, 0x20] ++ value)

/-- The loop of `read_bounded_body`, which drains the stream even if the body is too large. -/
def readBoundedBody.go (limit : Nat) (tooLarge : Bool) (output : List UInt8)
    (stream : List (Option (List UInt8))) : BodyRead BodyReadError :=
  match stream with
  | [] => ⟨if tooLarge then .error .tooLarge else .ok output, [], []⟩
  | none :: stream => ⟨.error .unavailable, [], stream⟩
  | some chunk :: stream =>
    if tooLarge then
      (go limit tooLarge output stream).after output
    else if output.length + chunk.length > limit then
      (go limit true [] stream).after []
    else
      (go limit false (output ++ chunk) stream).after (output ++ chunk)

def readBoundedBody.trace (request : Request) (limit : Nat) : BodyRead BodyReadError :=
  let tooLarge := request.contentLength.any fun length => (parseU64 length).any (· > limit)
  match request.body with
  | none => ⟨if tooLarge then .error .tooLarge else .ok [], [], []⟩
  | some stream => go limit tooLarge [] stream

def readBoundedBody (request : Request) (limit : Nat) : Except BodyReadError (List UInt8) :=
  (readBoundedBody.trace request limit).result

def cancelRequestBody (request : Request) : Except WorkerError Unit :=
  if request.body.isNone || request.cancels then .ok () else .error .cancel

def StoredAccount.decode (encoded : List UInt8) : Except MutationError StoredAccount := do
  Except.ensure (!(encoded.length != 80)) .invalidStorage
  let accountId ← Except.okOr (toFixed 16 (encoded.take 16)) .invalidStorage
  let publishHash ← Except.okOr (toFixed 32 ((encoded.drop 16).take 32)) .invalidStorage
  let downloadHash ← Except.okOr (toFixed 32 (encoded.drop 48)) .invalidStorage
  StoredAccount.new ⟨accountId⟩ publishHash downloadHash

namespace AccountObject

variable (crates : AccountCrates)

def authenticateRequest (storage : Storage) (request : Request) (accountId : AccountId)
    (requiredScope : ApiKeyScope) : Except AuthenticationError Unit := do
  let value ← Except.okOr (headerValue request.authorization) .unauthorized
  let token ← (ApiToken.parseAuthorization [value]).mapError fun _ => .unauthorized
  let loaded ← storage.loadAccount.mapError fun _ => .unavailable
  let account ← Except.okOr loaded .unauthorized
  Except.ensure (!(account.accountId != accountId)) .unavailable
  Except.ensure (account.authenticate (token.serviceHash crates) requiredScope) .unauthorized

def listRecords (storage : Storage) : Response :=
  match storage.loadIndex with
  | .ok index => .json Response.statusOk index.toJson
  | .error _ => .unavailable

def getRecord (storage : Storage) (recordId : RecordId) : Response :=
  match storage.loadRecord recordId with
  | .error _ => .unavailable
  | .ok (some record) =>
    let (envelope, revision) := record.intoEnvelope
    (Response.json Response.statusOk envelope.toJson).etag revision
  | .ok none => .error Response.statusNotFound .invalidRequest

def putRecord (storage : Storage) (request : Request) (recordId : RecordId)
    : Except WorkerError Response × Storage :=
  if request.oversized then
    ((cancelRequestBody request).map fun _ => .error Response.statusPayloadTooLarge .tooLarge,
      storage)
  else
    match readBoundedBody request maxApiBodyBytes with
    | .error .tooLarge => (.ok (.error Response.statusPayloadTooLarge .tooLarge), storage)
    | .error .unavailable => (.ok .unavailable, storage)
    | .ok body =>
      match Envelope.parseJson body with
      | .error .tooLarge => (.ok (.error Response.statusPayloadTooLarge .tooLarge), storage)
      | .error .invalidRequest => (.ok (.error Response.statusBadRequest .invalidRequest), storage)
      | .ok envelope =>
        match storage.putRecord recordId envelope with
        | (.ok outcome, storage) => (.ok (.mutationSuccess outcome), storage)
        | (.error (.mutation error), storage) => (.ok (.mutationError error), storage)
        | (.error (.unavailable _), storage) => (.ok .unavailable, storage)

/-- The part of `route_account_request` that only looks at the method and the route. -/
def parseRoute (request : Request) : Except Response (AccountId × AccountOperation) := do
  Except.ensure (request.route.accountId.any fun value => !value.isEmpty)
    (.error Response.statusNotFound .invalidRequest)
  let accountId ←
    Except.okOr (request.route.accountId.bind fun value => (AccountId.parse value).toOption)
      (.error Response.statusBadRequest .invalidRequest)
  match request.method, request.route.recordId with
  | .get, none => return (accountId, .listRecords)
  | .get, some value =>
    let recordId ←
      Except.okOr (RecordId.parse value).toOption
        (.error Response.statusBadRequest .invalidRequest)
    return (accountId, .getRecord recordId)
  | .put, some value =>
    let recordId ←
      Except.okOr (RecordId.parse value).toOption
        (.error Response.statusBadRequest .invalidRequest)
    return (accountId, .putRecord recordId)
  | _, _ => .error (.error Response.statusNotFound .invalidRequest)

def cancelsBody (operation : AccountOperation) (authentication : Except AuthenticationError Unit)
    : Bool :=
  match operation, authentication with
  | .putRecord _, .ok () => false
  | _, _ => true

def perform (storage : Storage) (request : Request) (operation : AccountOperation)
    : Except WorkerError Response × Storage :=
  match operation with
  | .listRecords => (.ok (listRecords storage), storage)
  | .getRecord recordId => (.ok (getRecord storage recordId), storage)
  | .putRecord recordId => putRecord storage request recordId

def routeAccountRequest (storage : Storage) (request : Request)
    : Except WorkerError Response × Storage :=
  match parseRoute request with
  | .error response => (.ok response, storage)
  | .ok (accountId, operation) =>
    let authentication := authenticateRequest crates storage request accountId operation.scope
    if cancelsBody operation authentication && cancelRequestBody request != .ok () then
      (.error .cancel, storage)
    else
      match authentication with
      | .error .unauthorized => (.ok .unauthorized, storage)
      | .error .unavailable => (.ok .unavailable, storage)
      | .ok () => perform storage request operation

def initializeAccount (storage : Storage) (request : Request) : Response × Storage :=
  match readBoundedBody request 80 with
  | .error _ => (.unavailable, storage)
  | .ok encoded =>
    match StoredAccount.decode encoded with
    | .error _ => (.unavailable, storage)
    | .ok account =>
      match storage.initializeAccount account with
      | (.ok .created, storage) => (.empty Response.statusNoContent, storage)
      | (.ok .alreadyExists, storage) => (.empty Response.statusConflict, storage)
      | (.error _, storage) => (.unavailable, storage)

def handleAccountRequest (storage : Storage) (request : Request)
    : Except WorkerError Response × Storage :=
  match request.route, request.method with
  | .initializeAccount, .post =>
    let (response, storage) := initializeAccount storage request
    (.ok response, storage)
  | .recordIndex _, .get => routeAccountRequest crates storage request
  | .record _ _, .get => routeAccountRequest crates storage request
  | .record _ _, .put => routeAccountRequest crates storage request
  | _, _ => (.ok (.error Response.statusNotFound .invalidRequest), storage)

def fetch (storage : Storage) (request : Request) : Response × Storage :=
  match handleAccountRequest crates storage request with
  | (.ok response, storage) => (response, storage)
  | (.error _, storage) => (.unavailable, storage)

end AccountObject

/--
An account object that answers requests, internal ones that initialize it and forwarded ones.
-/
def accountService (crates : AccountCrates) : System Storage (Request × Response) where
  init storage := storage.schema = none
  step storage event storage' :=
    AccountObject.fetch crates storage event.1 = (event.2, storage')

end Attached
