import Attached.Sync.Http

/-!
This module contains what a consistent fetch of a record guarantees, whatever the service answers:
the revision it returns is the one that the index showed last, and revisions never go backwards.
-/

namespace Attached

namespace HttpResponse

theorem getRecord_eq_ok_none_iff {statusText : Nat → String} {response : HttpResponse}
    : response.getRecord statusText = .ok none ↔ response.status = statusNotFound := by
  unfold getRecord
  split
  . next h => simp [h]
  . next h =>
    simp only [h, iff_false, Except.bind_eq_ok_iff, Except.pure_eq_ok_iff]
    rintro ⟨_, _, _, _, revision, _, body, _, fetched, _, hsome⟩
    simp at hsome

end HttpResponse

namespace Exchange

variable (statusText : Nat → String)

def fetched (exchange : Exchange) : Option FetchedRecord :=
  match exchange with
  | .get _ (some response) => (response.getRecord statusText).toOption.join
  | _ => none

def indexRevision (id : RecordId) (exchange : Exchange) : Option Nat :=
  match exchange with
  | .list _ (some response) => do
    let index ← (response.listRecords statusText).toOption
    let entry ← index.records.find? fun entry => entry.recordId == id
    return entry.revision
  | _ => none

def revision (id : RecordId) (exchange : Exchange) : Option Nat :=
  ((exchange.fetched statusText).map FetchedRecord.revision).or
    (exchange.indexRevision statusText id)

def Removed (id : RecordId) (exchange : Exchange) : Prop :=
  match exchange with
  | .get _ (some response) => response.status = HttpResponse.statusNotFound
  | .list _ (some response) =>
    ∃ index, response.listRecords statusText = .ok index
      ∧ ∀ entry ∈ index.records, entry.recordId ≠ id
  | _ => False

def lastFetched (log : List Exchange) : Option FetchedRecord :=
  (log.filter isGet).getLast? >>= fetched statusText

def latestIndexed (id : RecordId) (floor : Nat) (log : List Exchange) : Nat :=
  (log.filterMap (indexRevision statusText id)).getLast?.getD floor

def latestShown (id : RecordId) (floor : Nat) (log : List Exchange) : Nat :=
  (log.filterMap (revision statusText id)).getLast?.getD floor

end Exchange

namespace SyncHttpClient

variable (client : SyncHttpClient) (account : ApiCredentials)

def exchangeAt (id : RecordId) (n : Nat) : Exchange :=
  if n % 2 = 0 then
    .get ⟨recordUrl account id, bearerValue account⟩ (client.respond n)
  else
    .list ⟨recordsUrl account, bearerValue account⟩ (client.respond n)

structure ConsistentFetch (indexed : LiveRecordIndexEntry) (log : List Exchange)
    (result : Except String (Option FetchedRecord)) : Prop where
  accepted : ∀ fetched, result = .ok (some fetched) →
    Exchange.lastFetched client.statusText log = some fetched
      ∧ indexed.revision ≤ fetched.revision
      ∧ fetched.revision
        = Exchange.latestIndexed client.statusText indexed.recordId indexed.revision log
  floor :
    (indexed.revision
      :: log.dropLast.filterMap (Exchange.revision client.statusText indexed.recordId)).Pairwise
        (· ≤ ·)
  regression : ∀ before exchange after revision, log = before ++ exchange :: after →
    exchange.revision client.statusText indexed.recordId = some revision →
    revision < Exchange.latestShown client.statusText indexed.recordId indexed.revision before →
    after = [] ∧ ∃ error, result = .error error
  removed : result = .ok none
    ↔ ∃ exchange ∈ log, exchange.Removed client.statusText indexed.recordId
  alternating : log = (List.range log.length).map (client.exchangeAt account indexed.recordId)
  gets : log.countP Exchange.isGet ≤ maxRecordFetchAttempts
  rechecks : log.countP Exchange.isList ≤ maxRecordFetchAttempts
  rising : ∀ revisions : List Nat, revisions.length = 2 * maxRecordFetchAttempts →
    (∀ n < revisions.length, (client.exchangeAt account indexed.recordId n).revision
      client.statusText indexed.recordId = revisions[n]?) →
    (indexed.revision :: revisions).Pairwise (· < ·) →
    ∃ error, result = .error error

def got (n : Nat) : Except String (Option FetchedRecord) := do
  let response ← Except.okOr (client.respond n) "could not fetch synchronized record"
  response.getRecord client.statusText

def listed (n : Nat) : Except String LiveRecordIndex := do
  let response ← Except.okOr (client.respond n) "could not fetch synchronized record index"
  response.listRecords client.statusText

def answers (listRecords : Except String LiveRecordIndex) : ServiceAnswers where
  listRecords
  getRecord _ attempt :=
    if account.apiKeyScope = .download then
      client.got (2 * (attempt - 1))
    else
      .error "a download API key is required to fetch synchronized records"
  recheck _ attempt :=
    (client.listed (2 * (attempt - 1) + 1)).mapError
      fun _ => "could not recheck the synchronized record index"

inductive Fetch (id : RecordId)
    : (n floor remaining : Nat) → List Exchange → Except String (Option FetchedRecord) → Prop where
  | rejected {n floor remaining} (hscope : account.apiKeyScope ≠ .download)
    : Fetch id n floor (remaining + 1) []
        (.error "a download API key is required to fetch synchronized records")
  | exhausted {n floor}
    : Fetch id n floor 0 [] (.error "record kept changing after 3 fetch attempts")
  | failed {n floor remaining error} (hscope : account.apiKeyScope = .download)
    (hgot : client.got n = .error error)
    : Fetch id n floor (remaining + 1) [client.exchangeAt account id n] (.error error)
  | missing {n floor remaining} (hscope : account.apiKeyScope = .download)
    (hgot : client.got n = .ok none)
    : Fetch id n floor (remaining + 1) [client.exchangeAt account id n] (.ok none)
  | regressed {n floor remaining fetched} (hscope : account.apiKeyScope = .download)
    (hgot : client.got n = .ok (some fetched)) (hlt : fetched.revision < floor)
    : Fetch id n floor (remaining + 1) [client.exchangeAt account id n]
        (.error "record revision moved backwards during refresh")
  | current {n floor remaining fetched} (hscope : account.apiKeyScope = .download)
    (hgot : client.got n = .ok (some fetched)) (heq : fetched.revision = floor)
    : Fetch id n floor (remaining + 1) [client.exchangeAt account id n] (.ok (some fetched))
  | recheckFailed {n floor remaining fetched cause} (hscope : account.apiKeyScope = .download)
    (hgot : client.got n = .ok (some fetched)) (hlt : floor < fetched.revision)
    (hlisted : client.listed (n + 1) = .error cause)
    : Fetch id n floor (remaining + 1)
        [client.exchangeAt account id n, client.exchangeAt account id (n + 1)]
        (.error "could not recheck the synchronized record index")
  | unlisted {n floor remaining fetched index} (hscope : account.apiKeyScope = .download)
    (hgot : client.got n = .ok (some fetched)) (hlt : floor < fetched.revision)
    (hlisted : client.listed (n + 1) = .ok index)
    (hfind : index.records.find? (fun entry => entry.recordId == id) = none)
    : Fetch id n floor (remaining + 1)
        [client.exchangeAt account id n, client.exchangeAt account id (n + 1)] (.ok none)
  | indexRegressed {n floor remaining fetched index entry}
    (hscope : account.apiKeyScope = .download)
    (hgot : client.got n = .ok (some fetched)) (hlt : floor < fetched.revision)
    (hlisted : client.listed (n + 1) = .ok index)
    (hfind : index.records.find? (fun entry => entry.recordId == id) = some entry)
    (hback : entry.revision < fetched.revision)
    : Fetch id n floor (remaining + 1)
        [client.exchangeAt account id n, client.exchangeAt account id (n + 1)]
        (.error "record index moved backwards during refresh")
  | confirmed {n floor remaining fetched index entry} (hscope : account.apiKeyScope = .download)
    (hgot : client.got n = .ok (some fetched)) (hlt : floor < fetched.revision)
    (hlisted : client.listed (n + 1) = .ok index)
    (hfind : index.records.find? (fun entry => entry.recordId == id) = some entry)
    (heq : entry.revision = fetched.revision)
    : Fetch id n floor (remaining + 1)
        [client.exchangeAt account id n, client.exchangeAt account id (n + 1)] (.ok (some fetched))
  | again {n floor remaining fetched index entry log result}
    (hscope : account.apiKeyScope = .download)
    (hgot : client.got n = .ok (some fetched)) (hlt : floor < fetched.revision)
    (hlisted : client.listed (n + 1) = .ok index)
    (hfind : index.records.find? (fun entry => entry.recordId == id) = some entry)
    (hrise : fetched.revision < entry.revision)
    (hrest : Fetch id (n + 2) entry.revision remaining log result)
    : Fetch id n floor (remaining + 1)
        (client.exchangeAt account id n :: client.exchangeAt account id (n + 1) :: log) result

variable {client account}

theorem isGet_exchangeAt {id : RecordId} {n : Nat}
    : (client.exchangeAt account id n).isGet = decide (n % 2 = 0) := by
  unfold exchangeAt
  split
  . next h => simp [h, Exchange.isGet]
  . next h => simp [h, Exchange.isGet]

theorem fetched_exchangeAt {id : RecordId} {n : Nat} (heven : n % 2 = 0)
    : (client.exchangeAt account id n).fetched client.statusText
        =
      (client.got n).toOption.join := by
  rw [exchangeAt, if_pos heven, got]
  cases client.respond n with
  | none => rfl
  | some response => rfl

theorem fetched_exchangeAt_of_odd {id : RecordId} {n : Nat} (hodd : n % 2 = 1)
    : (client.exchangeAt account id n).fetched client.statusText = none := by
  rw [exchangeAt, if_neg (by omega)]
  rfl

theorem indexRevision_exchangeAt {id : RecordId} {n : Nat} (heven : n % 2 = 0)
    : (client.exchangeAt account id n).indexRevision client.statusText id = none := by
  rw [exchangeAt, if_pos heven]
  rfl

theorem indexRevision_exchangeAt_of_odd {id : RecordId} {n : Nat} (hodd : n % 2 = 1)
    : (client.exchangeAt account id n).indexRevision client.statusText id = (do
        let index ← (client.listed n).toOption
        let entry ← index.records.find? fun entry => entry.recordId == id
        return entry.revision) := by
  rw [exchangeAt, if_neg (by omega), listed]
  cases client.respond n with
  | none => rfl
  | some response => rfl

theorem revision_exchangeAt {id : RecordId} {n : Nat} (heven : n % 2 = 0)
    : (client.exchangeAt account id n).revision client.statusText id
        =
      (client.got n).toOption.join.map FetchedRecord.revision := by
  rw [Exchange.revision, fetched_exchangeAt heven, indexRevision_exchangeAt heven, Option.or_none]

theorem revision_exchangeAt_of_odd {id : RecordId} {n : Nat} (hodd : n % 2 = 1)
    : (client.exchangeAt account id n).revision client.statusText id
        =
      (client.exchangeAt account id n).indexRevision client.statusText id := by
  rw [Exchange.revision, fetched_exchangeAt_of_odd hodd, Option.map_none, Option.none_or]

theorem removed_exchangeAt {id : RecordId} {n : Nat} (heven : n % 2 = 0)
    : (client.exchangeAt account id n).Removed client.statusText id ↔ client.got n = .ok none := by
  rw [exchangeAt, if_pos heven, got]
  cases client.respond n with
  | none => simp [Exchange.Removed, Except.okOr, bind, Except.bind]
  | some response => exact HttpResponse.getRecord_eq_ok_none_iff.symm

theorem removed_exchangeAt_of_odd {id : RecordId} {n : Nat} (hodd : n % 2 = 1)
    : (client.exchangeAt account id n).Removed client.statusText id
        ↔
      ∃ index, client.listed n = .ok index
        ∧ index.records.find? (fun entry => entry.recordId == id) = none := by
  rw [exchangeAt, if_neg (by omega), listed]
  cases client.respond n with
  | none => simp [Exchange.Removed, Except.okOr, bind, Except.bind]
  | some response => simp [Exchange.Removed, Except.okOr, bind, Except.bind]

theorem isHeaderByte_of_isSymbol {byte : UInt8} (h : Base64.isSymbol byte = true)
    : (0x20 ≤ byte && byte != 0x7f || byte == 0x09) = true := by
  revert byte
  apply Bytes.forall_byte
  decide +kernel

theorem authorization_eq_ok : authorization account = .ok (bearerValue account) := by
  have hvisible : (bearerValue account).all
      (fun byte => 0x20 ≤ byte && byte != 0x7f || byte == 0x09) = true := by
    rw [List.all_eq_true]
    intro byte hbyte
    rw [bearerValue, List.mem_append] at hbyte
    rcases hbyte with hbyte | hbyte
    . revert hbyte byte
      decide +kernel
    . have hsymbol := List.all_eq_true.mp (Base64.all_isSymbol_encode _) byte hbyte
      exact isHeaderByte_of_isSymbol hsymbol
  simp only [authorization, hvisible]
  rfl

theorem run_send {exchange : Option HttpResponse → Exchange} {log : List Exchange}
    : (client.send exchange).run log
        =
      (.ok (client.respond log.length), log ++ [exchange (client.respond log.length)]) := rfl

theorem run_getRecord {id : RecordId} {log : List Exchange}
    (hscope : account.apiKeyScope = .download) (heven : log.length % 2 = 0)
    : (client.getRecord account id).run log
        =
      (client.got log.length, log ++ [client.exchangeAt account id log.length]) := by
  have hensure : Except.ensure (decide (account.apiKeyScope = .download))
      "a download API key is required to fetch synchronized records" = .ok () := by
    simp [hscope]
  unfold getRecord
  rw [hensure, Effect.run_bind_of_ok (Effect.run_lift _ _), authorization_eq_ok,
    Effect.run_bind_of_ok (Effect.run_lift _ _), Effect.run_bind_of_ok run_send, Effect.bind_def,
    Effect.run_lift, exchangeAt, if_pos heven, got]
  cases client.respond log.length with
  | none => rfl
  | some response => rfl

theorem run_listRecords {id : RecordId} {log : List Exchange}
    (hscope : account.apiKeyScope = .download) (hodd : log.length % 2 = 1)
    : (client.listRecords account).run log
        =
      (client.listed log.length, log ++ [client.exchangeAt account id log.length]) := by
  have hensure : Except.ensure (decide (account.apiKeyScope = .download))
      "a download API key is required to list synchronized records" = .ok () := by
    simp [hscope]
  unfold listRecords
  rw [hensure, Effect.run_bind_of_ok (Effect.run_lift _ _), authorization_eq_ok,
    Effect.run_bind_of_ok (Effect.run_lift _ _), Effect.run_bind_of_ok run_send, Effect.bind_def,
    Effect.run_lift, exchangeAt, if_neg (by omega), listed]
  cases client.respond log.length with
  | none => rfl
  | some response => rfl

theorem run_getRecord_of_publish {id : RecordId} {log : List Exchange}
    (hscope : account.apiKeyScope ≠ .download)
    : (client.getRecord account id).run log
        =
      (.error "a download API key is required to fetch synchronized records", log) := by
  have hensure : Except.ensure (decide (account.apiKeyScope = .download))
      "a download API key is required to fetch synchronized records"
        = .error "a download API key is required to fetch synchronized records" := by
    simp [hscope]
  unfold getRecord
  rw [hensure]
  exact Effect.run_bind_of_error (Effect.run_lift _ _)

theorem run_recheck {id : RecordId} {log : List Exchange}
    (hscope : account.apiKeyScope = .download) (hodd : log.length % 2 = 1)
    : (context (client.listRecords account)
        "could not recheck the synchronized record index").run log
        =
      ((client.listed log.length).mapError
          fun _ => "could not recheck the synchronized record index",
        log ++ [client.exchangeAt account id log.length]) := by
  unfold context
  rw [Effect.bind_def, Effect.run_attempt, run_listRecords hscope hodd]
  rfl

theorem run_confirm {indexed : LiveRecordIndexEntry} {remaining : Nat} {log : List Exchange}
    {fetched : FetchedRecord} (hscope : account.apiKeyScope = .download)
    (heven : log.length % 2 = 0) (hgot : client.got log.length = .ok (some fetched))
    (hgt : indexed.revision < fetched.revision)
    (hnext : ∀ current : LiveRecordIndexEntry, ∀ {log : List Exchange}, log.length % 2 = 0 →
      ∃ new result,
        (fetchConsistentRecord.go client account current remaining).run log = (result, log ++ new)
          ∧ Fetch client account current.recordId log.length current.revision remaining new
              result)
    : ∃ new result,
        (do
          let index ←
            context (client.listRecords account) "could not recheck the synchronized record index"
          match index.records.find? fun entry => entry.recordId == indexed.recordId with
          | none => return none
          | some current =>
            Effect.lift
              (Except.ensure (fetched.revision ≤ current.revision)
                "record index moved backwards during refresh")
            if current.revision = fetched.revision then
              return some fetched
            fetchConsistentRecord.go client account current remaining
          : Effect (List Exchange) String (Option FetchedRecord)).run
            (log ++ [client.exchangeAt account indexed.recordId log.length])
          = (result, log ++ new)
          ∧ Fetch client account indexed.recordId log.length indexed.revision (remaining + 1) new
              result := by
  have hlength : (log ++ [client.exchangeAt account indexed.recordId log.length]).length
      = log.length + 1 := by
    rw [List.length_append, List.length_singleton]
  have hlisted : (context (client.listRecords account)
      "could not recheck the synchronized record index").run
        (log ++ [client.exchangeAt account indexed.recordId log.length])
      = ((client.listed (log.length + 1)).mapError
          fun _ => "could not recheck the synchronized record index",
        log ++ [client.exchangeAt account indexed.recordId log.length,
          client.exchangeAt account indexed.recordId (log.length + 1)]) := by
    rw [run_recheck hscope (by rw [hlength]; omega), hlength, List.append_assoc,
      List.singleton_append]
  cases hindex : client.listed (log.length + 1) with
  | error cause =>
    rw [hindex] at hlisted
    exact ⟨_, _, Effect.run_bind_of_error hlisted, .recheckFailed hscope hgot hgt hindex⟩
  | ok index =>
    rw [hindex] at hlisted
    rw [Effect.run_bind_of_ok hlisted]
    cases hfind : index.records.find? fun entry => entry.recordId == indexed.recordId with
    | none => exact ⟨_, _, rfl, .unlisted hscope hgot hgt hindex hfind⟩
    | some current =>
      dsimp only
      rcases Nat.lt_trichotomy current.revision fetched.revision with hlt | heq | hrise
      . exact ⟨_, _, Effect.run_ensure_bind_of_false (by simpa using hlt),
          .indexRegressed hscope hgot hgt hindex hfind hlt⟩
      . refine ⟨_, _, ?_, .confirmed hscope hgot hgt hindex hfind heq⟩
        rw [Effect.run_ensure_bind (by simpa using heq.ge), if_pos heq]
        rfl
      . rw [Effect.run_ensure_bind (by simpa using hrise.le), if_neg (by omega)]
        have hid : current.recordId = indexed.recordId := by
          simpa using List.find?_some hfind
        have hround : (log ++ [client.exchangeAt account indexed.recordId log.length,
            client.exchangeAt account indexed.recordId (log.length + 1)]).length
              = log.length + 2 := by
          rw [List.length_append]
          rfl
        rcases hnext current (by rw [hround]; omega) with ⟨new, result, hrun, hfetch⟩
        rw [hround, hid] at hfetch
        refine ⟨_, result, ?_, .again hscope hgot hgt hindex hfind hrise hfetch⟩
        rw [hrun, List.append_assoc]
        rfl

theorem run_go (indexed : LiveRecordIndexEntry) (remaining : Nat) {log : List Exchange}
    (heven : log.length % 2 = 0)
    : ∃ new result,
        (fetchConsistentRecord.go client account indexed remaining).run log = (result, log ++ new)
          ∧ Fetch client account indexed.recordId log.length indexed.revision remaining new
              result := by
  induction remaining generalizing indexed log with
  | zero => exact ⟨[], _, by rw [fetchConsistentRecord.go, List.append_nil]; rfl, .exhausted⟩
  | succ remaining ih =>
    rw [fetchConsistentRecord.go]
    by_cases hscope : account.apiKeyScope = .download
    . cases hgot : client.got log.length with
      | error error =>
        refine ⟨_, _, ?_, .failed hscope hgot⟩
        rw [Effect.bind_def, run_getRecord hscope heven, hgot]
      | ok found =>
        rw [Effect.run_bind_of_ok (by rw [run_getRecord hscope heven, hgot])]
        cases found with
        | none => exact ⟨_, _, rfl, .missing hscope hgot⟩
        | some fetched =>
          rcases Nat.lt_trichotomy fetched.revision indexed.revision with hlt | heq | hgt
          . exact ⟨_, _, Effect.run_ensure_bind_of_false (by simpa using hlt),
              .regressed hscope hgot hlt⟩
          . refine ⟨_, _, ?_, .current hscope hgot heq⟩
            dsimp only
            rw [Effect.run_ensure_bind (by simpa using heq.ge), if_pos heq]
            rfl
          . dsimp only
            rw [Effect.run_ensure_bind (by simpa using hgt.le), if_neg (by omega)]
            exact run_confirm hscope heven hgot hgt ih
    . refine ⟨[], .error "a download API key is required to fetch synchronized records", ?_,
        .rejected hscope⟩
      rw [Effect.run_bind_of_error (run_getRecord_of_publish hscope), List.append_nil]

section

variable {id : RecordId} {n floor remaining : Nat} {log : List Exchange}
  {result : Except String (Option FetchedRecord)}

theorem latestIndexed_get (heven : n % 2 = 0)
    : Exchange.latestIndexed client.statusText id floor (client.exchangeAt account id n :: log)
        =
      Exchange.latestIndexed client.statusText id floor log := by
  rw [Exchange.latestIndexed, List.filterMap_cons_none (indexRevision_exchangeAt heven)]
  rfl

theorem latestIndexed_list {revision : Nat} (hodd : n % 2 = 1)
    (hrevision : (client.exchangeAt account id n).revision client.statusText id = some revision)
    : Exchange.latestIndexed client.statusText id floor (client.exchangeAt account id n :: log)
        =
      Exchange.latestIndexed client.statusText id revision log := by
  rw [revision_exchangeAt_of_odd hodd] at hrevision
  rw [Exchange.latestIndexed, List.filterMap_cons_some hrevision, List.getLast?_cons]
  rfl

theorem latestShown_cons {exchange : Exchange} {revision : Nat}
    (hrevision : exchange.revision client.statusText id = some revision)
    : Exchange.latestShown client.statusText id floor (exchange :: log)
        =
      Exchange.latestShown client.statusText id revision log := by
  rw [Exchange.latestShown, List.filterMap_cons_some hrevision, List.getLast?_cons]
  rfl

theorem revision_of_got {fetched : FetchedRecord} (heven : n % 2 = 0)
    (hgot : client.got n = .ok (some fetched))
    : (client.exchangeAt account id n).revision client.statusText id = some fetched.revision := by
  rw [revision_exchangeAt heven, hgot]
  rfl

theorem revision_of_listed {index : LiveRecordIndex} {entry : LiveRecordIndexEntry}
    (heven : n % 2 = 0) (hlisted : client.listed (n + 1) = .ok index)
    (hfind : index.records.find? (fun entry => entry.recordId == id) = some entry)
    : (client.exchangeAt account id (n + 1)).revision client.statusText id
        =
      some entry.revision := by
  rw [revision_exchangeAt_of_odd (by omega), indexRevision_exchangeAt_of_odd (by omega), hlisted]
  simp [Except.toOption, hfind]

theorem lastFetched_cons {exchange : Exchange} {fetched : FetchedRecord}
    (h : Exchange.lastFetched client.statusText log = some fetched)
    : Exchange.lastFetched client.statusText (exchange :: log) = some fetched := by
  unfold Exchange.lastFetched at *
  rcases Option.bind_eq_some_iff.mp h with ⟨last, hlast, hfetched⟩
  rw [List.filter_cons]
  split
  . rw [List.getLast?_cons, hlast]
    exact hfetched
  . exact h

theorem lastFetched_singleton (heven : n % 2 = 0)
    : Exchange.lastFetched client.statusText [client.exchangeAt account id n]
        =
      (client.got n).toOption.join := by
  have hget : (client.exchangeAt account id n).isGet = true := by
    simp [isGet_exchangeAt, heven]
  rw [Exchange.lastFetched, List.filter_cons_of_pos hget]
  exact fetched_exchangeAt heven

theorem lastFetched_pair (heven : n % 2 = 0)
    : Exchange.lastFetched client.statusText
        [client.exchangeAt account id n, client.exchangeAt account id (n + 1)]
        =
      (client.got n).toOption.join := by
  have hget : (client.exchangeAt account id n).isGet = true := by
    simp [isGet_exchangeAt, heven]
  have hlist : ¬(client.exchangeAt account id (n + 1)).isGet = true := by
    rw [isGet_exchangeAt, decide_eq_true_eq]
    omega
  rw [Exchange.lastFetched, List.filter_cons_of_pos hget, List.filter_cons_of_neg hlist]
  exact fetched_exchangeAt heven

theorem eq_of_singleton_eq {first exchange : Exchange} {before after : List Exchange}
    (h : [first] = before ++ exchange :: after) : before = [] ∧ exchange = first ∧ after = [] := by
  cases before with
  | nil =>
    rw [List.nil_append, List.cons.injEq] at h
    exact ⟨rfl, h.1.symm, h.2.symm⟩
  | cons first before => simp at h

theorem countP_range {length : Nat} (heven : n % 2 = 0)
    : ((List.range' n length).map (client.exchangeAt account id)).countP Exchange.isGet
          = (length + 1) / 2
        ∧ ((List.range' n length).map (client.exchangeAt account id)).countP Exchange.isList
          = length / 2 := by
  induction length using Nat.twoStepInduction generalizing n with
  | zero => simp
  | one => simp [Exchange.isList, isGet_exchangeAt, heven]
  | more length ih _ =>
    have hodd : (n + 1) % 2 = 1 := by omega
    have hrest := @ih (n + 2) (by omega)
    rw [List.range'_succ, List.range'_succ, List.map_cons, List.map_cons]
    simp only [List.countP_cons, Exchange.isList, isGet_exchangeAt, heven, hodd] at hrest ⊢
    simp only [hrest]
    constructor
    . simp +arith
      omega
    . simp +arith

theorem regression_cons {first exchange : Exchange} {before after : List Exchange}
    {shown revision : Nat} (hlog : first :: log = before ++ exchange :: after)
    (hshown : first.revision client.statusText id = some shown) (hle : floor ≤ shown)
    (hrevision : exchange.revision client.statusText id = some revision)
    (hlt : revision < Exchange.latestShown client.statusText id floor before)
    : ∃ before', log = before' ++ exchange :: after
        ∧ revision < Exchange.latestShown client.statusText id shown before' := by
  cases before with
  | nil =>
    rw [List.nil_append, List.cons.injEq] at hlog
    rw [← hlog.1, hshown, Option.some.injEq] at hrevision
    have : revision < floor := hlt
    omega
  | cons exchange before =>
    rw [List.cons_append, List.cons.injEq] at hlog
    rw [← hlog.1, latestShown_cons hshown] at hlt
    exact ⟨before, hlog.2, hlt⟩

namespace Fetch

theorem accepted (h : Fetch client account id n floor remaining log result) (heven : n % 2 = 0)
    {fetched : FetchedRecord} (hresult : result = .ok (some fetched))
    : Exchange.lastFetched client.statusText log = some fetched
        ∧ floor ≤ fetched.revision
        ∧ fetched.revision = Exchange.latestIndexed client.statusText id floor log := by
  induction h with
  | rejected => cases hresult
  | exhausted => cases hresult
  | failed => cases hresult
  | missing => cases hresult
  | regressed => cases hresult
  | recheckFailed => cases hresult
  | unlisted => cases hresult
  | indexRegressed => cases hresult
  | current _ hgot heq =>
    cases hresult
    refine ⟨?_, heq.ge, ?_⟩
    . rw [lastFetched_singleton heven, hgot]
      rfl
    . rw [latestIndexed_get heven]
      exact heq
  | confirmed _ hgot hlt hlisted hfind heq =>
    cases hresult
    refine ⟨?_, hlt.le, ?_⟩
    . rw [lastFetched_pair heven, hgot]
      rfl
    . rw [latestIndexed_get heven,
        latestIndexed_list (by omega) (revision_of_listed heven hlisted hfind)]
      exact heq.symm
  | again _ hgot hlt hlisted hfind hrise hrest ih =>
    rcases ih (by omega) hresult with ⟨hlast, hle, heq⟩
    refine ⟨lastFetched_cons (lastFetched_cons hlast), by omega, ?_⟩
    rw [latestIndexed_get heven,
      latestIndexed_list (by omega) (revision_of_listed heven hlisted hfind)]
    exact heq

theorem floor_le (h : Fetch client account id n floor remaining log result) (heven : n % 2 = 0)
    : (floor :: log.dropLast.filterMap (Exchange.revision client.statusText id)).IsChain
        (· ≤ ·) := by
  induction h with
  | rejected => exact .singleton _
  | exhausted => exact .singleton _
  | failed => exact .singleton _
  | missing => exact .singleton _
  | regressed => exact .singleton _
  | current => exact .singleton _
  | recheckFailed _ hgot hlt =>
    rw [List.dropLast_cons_cons, List.filterMap_cons_some (revision_of_got heven hgot)]
    exact .cons_cons hlt.le (.singleton _)
  | unlisted _ hgot hlt =>
    rw [List.dropLast_cons_cons, List.filterMap_cons_some (revision_of_got heven hgot)]
    exact .cons_cons hlt.le (.singleton _)
  | indexRegressed _ hgot hlt =>
    rw [List.dropLast_cons_cons, List.filterMap_cons_some (revision_of_got heven hgot)]
    exact .cons_cons hlt.le (.singleton _)
  | confirmed _ hgot hlt =>
    rw [List.dropLast_cons_cons, List.filterMap_cons_some (revision_of_got heven hgot)]
    exact .cons_cons hlt.le (.singleton _)
  | @again n floor remaining fetched index entry log result _ hgot hlt hlisted hfind hrise hrest
      ih =>
    rw [List.dropLast_cons_cons, List.filterMap_cons_some (revision_of_got heven hgot)]
    apply List.IsChain.cons_cons hlt.le
    cases log with
    | nil => exact .singleton _
    | cons exchange log =>
      rw [List.dropLast_cons_cons,
        List.filterMap_cons_some (revision_of_listed heven hlisted hfind)]
      exact .cons_cons hrise.le (ih (by omega))

theorem removed_iff (h : Fetch client account id n floor remaining log result)
    (heven : n % 2 = 0)
    : result = .ok none ↔ ∃ exchange ∈ log, exchange.Removed client.statusText id := by
  induction h with
  | rejected => simp
  | exhausted => simp
  | failed _ hgot => simp [removed_exchangeAt heven, hgot]
  | missing _ hgot => simp [removed_exchangeAt heven, hgot]
  | regressed _ hgot => simp [removed_exchangeAt heven, hgot]
  | current _ hgot => simp [removed_exchangeAt heven, hgot]
  | @recheckFailed n _ _ _ _ _ hgot hlt hlisted =>
    have hodd : (n + 1) % 2 = 1 := by omega
    simp [removed_exchangeAt heven, removed_exchangeAt_of_odd hodd, hgot, hlisted]
  | @unlisted n _ _ _ _ _ hgot hlt hlisted hfind =>
    have hodd : (n + 1) % 2 = 1 := by omega
    simp [removed_exchangeAt heven, removed_exchangeAt_of_odd hodd, hgot, hlisted,
      -List.find?_eq_none, hfind]
  | @indexRegressed n _ _ _ _ _ _ hgot hlt hlisted hfind =>
    have hodd : (n + 1) % 2 = 1 := by omega
    simp [removed_exchangeAt heven, removed_exchangeAt_of_odd hodd, hgot, hlisted,
      -List.find?_eq_none, hfind]
  | @confirmed n _ _ _ _ _ _ hgot hlt hlisted hfind =>
    have hodd : (n + 1) % 2 = 1 := by omega
    simp [removed_exchangeAt heven, removed_exchangeAt_of_odd hodd, hgot, hlisted,
      -List.find?_eq_none, hfind]
  | @again n _ _ _ _ _ _ _ _ hgot hlt hlisted hfind hrise hrest ih =>
    have hodd : (n + 1) % 2 = 1 := by omega
    rw [ih (by omega)]
    simp [removed_exchangeAt heven, removed_exchangeAt_of_odd hodd, hgot, hlisted,
      -List.find?_eq_none, hfind]

theorem regression (h : Fetch client account id n floor remaining log result) (heven : n % 2 = 0)
    {before after : List Exchange} {exchange : Exchange} {revision : Nat}
    (hlog : log = before ++ exchange :: after)
    (hrevision : exchange.revision client.statusText id = some revision)
    (hlt : revision < Exchange.latestShown client.statusText id floor before)
    : after = [] ∧ ∃ error, result = .error error := by
  induction h generalizing before with
  | rejected => simp at hlog
  | exhausted => simp at hlog
  | failed => exact ⟨(eq_of_singleton_eq hlog).2.2, _, rfl⟩
  | regressed => exact ⟨(eq_of_singleton_eq hlog).2.2, _, rfl⟩
  | missing _ hgot =>
    rw [(eq_of_singleton_eq hlog).2.1, revision_exchangeAt heven, hgot] at hrevision
    cases hrevision
  | current _ hgot heq =>
    rcases regression_cons hlog (revision_of_got heven hgot) heq.ge hrevision hlt
      with ⟨_, hnil, _⟩
    simp at hnil
  | recheckFailed _ hgot hgt hlisted =>
    rcases regression_cons hlog (revision_of_got heven hgot) hgt.le hrevision hlt
      with ⟨_, hlog, _⟩
    exact ⟨(eq_of_singleton_eq hlog).2.2, _, rfl⟩
  | indexRegressed _ hgot hgt hlisted hfind hback =>
    rcases regression_cons hlog (revision_of_got heven hgot) hgt.le hrevision hlt
      with ⟨_, hlog, _⟩
    exact ⟨(eq_of_singleton_eq hlog).2.2, _, rfl⟩
  | unlisted _ hgot hgt hlisted hfind =>
    rcases regression_cons hlog (revision_of_got heven hgot) hgt.le hrevision hlt
      with ⟨_, hlog, _⟩
    rw [(eq_of_singleton_eq hlog).2.1, revision_exchangeAt_of_odd (by omega),
      indexRevision_exchangeAt_of_odd (by omega), hlisted] at hrevision
    simp [Except.toOption, -List.find?_eq_none, hfind] at hrevision
  | confirmed _ hgot hgt hlisted hfind heq =>
    rcases regression_cons hlog (revision_of_got heven hgot) hgt.le hrevision hlt
      with ⟨_, hlog, hlt⟩
    rcases regression_cons hlog (revision_of_listed heven hlisted hfind) heq.ge hrevision hlt
      with ⟨_, hnil, _⟩
    simp at hnil
  | again _ hgot hgt hlisted hfind hrise hrest ih =>
    rcases regression_cons hlog (revision_of_got heven hgot) hgt.le hrevision hlt
      with ⟨_, hlog, hlt⟩
    rcases regression_cons hlog (revision_of_listed heven hlisted hfind) hrise.le hrevision hlt
      with ⟨_, hlog, hlt⟩
    exact ih (by omega) hlog hlt

theorem eq_map_range (h : Fetch client account id n floor remaining log result)
    : log = (List.range' n log.length).map (client.exchangeAt account id) := by
  induction h with
  | rejected => rfl
  | exhausted => rfl
  | failed => rfl
  | missing => rfl
  | regressed => rfl
  | current => rfl
  | recheckFailed => rfl
  | unlisted => rfl
  | indexRegressed => rfl
  | confirmed => rfl
  | again _ hgot hlt hlisted hfind hrise hrest ih =>
    rw [List.length_cons, List.length_cons, List.range'_succ, List.range'_succ, List.map_cons,
      List.map_cons, ← ih]

theorem length_le (h : Fetch client account id n floor remaining log result)
    : log.length ≤ 2 * remaining := by
  induction h with
  | again _ hgot hlt hlisted hfind hrise hrest ih =>
    rw [List.length_cons, List.length_cons]
    omega
  | _ => simp +arith

theorem countP_isGet_le (h : Fetch client account id n floor remaining log result)
    (heven : n % 2 = 0) : log.countP Exchange.isGet ≤ remaining := by
  have hlength := h.length_le
  rw [h.eq_map_range, (countP_range heven).1]
  omega

theorem countP_isList_le (h : Fetch client account id n floor remaining log result)
    (heven : n % 2 = 0) : log.countP Exchange.isList ≤ remaining := by
  have hlength := h.length_le
  rw [h.eq_map_range, (countP_range heven).2]
  omega

theorem rising (h : Fetch client account id n floor remaining log result) (heven : n % 2 = 0)
    {revisions : List Nat} (hlength : revisions.length = 2 * remaining)
    (hshown : ∀ k < revisions.length,
      (client.exchangeAt account id (n + k)).revision client.statusText id = revisions[k]?)
    (hrising : (floor :: revisions).IsChain (· < ·)) : ∃ error, result = .error error := by
  induction h generalizing revisions with
  | rejected => exact ⟨_, rfl⟩
  | exhausted => exact ⟨_, rfl⟩
  | failed => exact ⟨_, rfl⟩
  | regressed => exact ⟨_, rfl⟩
  | recheckFailed => exact ⟨_, rfl⟩
  | indexRegressed => exact ⟨_, rfl⟩
  | missing _ hgot =>
    rcases revisions with _ | ⟨first, revisions⟩
    . simp at hlength
    . have hfirst := hshown 0 (by simp)
      rw [Nat.add_zero, revision_exchangeAt heven, hgot] at hfirst
      cases hfirst
  | current _ hgot heq =>
    rcases revisions with _ | ⟨first, revisions⟩
    . simp at hlength
    . have hfirst := hshown 0 (by simp)
      rw [Nat.add_zero, revision_of_got heven hgot, List.getElem?_cons_zero,
        Option.some.injEq] at hfirst
      have := hrising.rel
      omega
  | unlisted _ hgot hgt hlisted hfind =>
    rcases revisions with _ | ⟨first, _ | ⟨second, revisions⟩⟩
    . simp at hlength
    . simp only [List.length_singleton] at hlength
      omega
    . have hsecond := hshown 1 (by simp)
      rw [revision_exchangeAt_of_odd (by omega), indexRevision_exchangeAt_of_odd (by omega),
        hlisted] at hsecond
      simp [Except.toOption, -List.find?_eq_none, hfind] at hsecond
  | confirmed _ hgot hgt hlisted hfind heq =>
    rcases revisions with _ | ⟨first, _ | ⟨second, revisions⟩⟩
    . simp at hlength
    . simp only [List.length_singleton] at hlength
      omega
    . have hfirst := hshown 0 (by simp)
      have hsecond := hshown 1 (by simp)
      rw [Nat.add_zero, revision_of_got heven hgot, List.getElem?_cons_zero,
        Option.some.injEq] at hfirst
      rw [revision_of_listed heven hlisted hfind, List.getElem?_cons_succ, List.getElem?_cons_zero,
        Option.some.injEq] at hsecond
      have := hrising.tail.rel
      omega
  | again _ hgot hgt hlisted hfind hrise hrest ih =>
    rcases revisions with _ | ⟨first, _ | ⟨second, revisions⟩⟩
    . simp at hlength
    . simp only [List.length_singleton] at hlength
      omega
    . have hsecond := hshown 1 (by simp)
      rw [revision_of_listed heven hlisted hfind, List.getElem?_cons_succ, List.getElem?_cons_zero,
        Option.some.injEq] at hsecond
      rw [hsecond] at ih
      refine ih (by omega) ?_ ?_ hrising.tail.tail
      . simp only [List.length_cons] at hlength
        omega
      . intro k hk
        have hlater := hshown (k + 2) (by simpa using hk)
        rw [List.getElem?_cons_succ, List.getElem?_cons_succ] at hlater
        rw [← hlater, Nat.add_assoc, Nat.add_comm 2 k]

theorem answers_getRecord {listRecords : Except String LiveRecordIndex} {attempt : Nat}
    (hscope : account.apiKeyScope = .download) (hn : n = 2 * (attempt - 1))
    : (client.answers account listRecords).getRecord id attempt = client.got n := by
  simp [answers, hscope, hn]

theorem answers_recheck {listRecords : Except String LiveRecordIndex} {attempt : Nat}
    (hn : n = 2 * (attempt - 1))
    : (client.answers account listRecords).recheck id attempt
        =
      (client.listed (n + 1)).mapError
        fun _ => "could not recheck the synchronized record index" := by
  simp [answers, hn]

theorem go_eq (h : Fetch client account id n floor remaining log result)
    (listRecords : Except String LiveRecordIndex) {attempt : Nat} (hn : n = 2 * (attempt - 1))
    (hattempt : 1 ≤ attempt)
    : Attached.fetchConsistentRecord.go (client.answers account listRecords) ⟨id, floor⟩ attempt
        remaining
        =
      result := by
  induction h generalizing attempt with
  | rejected hscope =>
    simp [Attached.fetchConsistentRecord.go, answers, hscope, bind, Except.bind]
  | exhausted => rfl
  | failed hscope hgot =>
    simp [Attached.fetchConsistentRecord.go, answers_getRecord hscope hn, hgot, bind, Except.bind]
  | missing hscope hgot =>
    simp [Attached.fetchConsistentRecord.go, answers_getRecord hscope hn, hgot, Except.ok_bind,
      pure, Except.pure]
  | regressed hscope hgot hlt =>
    simp [Attached.fetchConsistentRecord.go, answers_getRecord hscope hn, hgot, Except.ensure,
      hlt.not_ge, bind, Except.bind]
  | current hscope hgot heq =>
    simp [Attached.fetchConsistentRecord.go, answers_getRecord hscope hn, hgot, Except.ok_bind,
      Except.ensure, heq, pure, Except.pure]
  | recheckFailed hscope hgot hlt hlisted =>
    simp [Attached.fetchConsistentRecord.go, answers_getRecord hscope hn, hgot, Except.ensure,
      hlt.le, hlt.ne', answers_recheck hn, hlisted, Except.mapError, bind, Except.bind]
  | unlisted hscope hgot hlt hlisted hfind =>
    simp [Attached.fetchConsistentRecord.go, answers_getRecord hscope hn, hgot, Except.ok_bind,
      Except.ensure, hlt.le, hlt.ne', answers_recheck hn, hlisted, Except.mapError, hfind, pure,
      Except.pure, -List.find?_eq_none]
  | indexRegressed hscope hgot hlt hlisted hfind hback =>
    simp [Attached.fetchConsistentRecord.go, answers_getRecord hscope hn, hgot, Except.ensure,
      hlt.le, hlt.ne', answers_recheck hn, hlisted, Except.mapError, hfind, hback.not_ge, bind,
      Except.bind]
  | confirmed hscope hgot hlt hlisted hfind heq =>
    simp [Attached.fetchConsistentRecord.go, answers_getRecord hscope hn, hgot, Except.ok_bind,
      Except.ensure, hlt.le, hlt.ne', answers_recheck hn, hlisted, Except.mapError, hfind, heq,
      pure, Except.pure]
  | @again n floor remaining fetched index entry log result hscope hgot hlt hlisted hfind hrise
      hrest ih =>
    have hid : entry.recordId = id := by
      simpa using List.find?_some hfind
    have hentry : entry = ⟨id, entry.revision⟩ := by
      rw [← hid]
    have hnext := @ih (attempt + 1) (by omega) (by omega)
    rw [← hentry] at hnext
    simp [Attached.fetchConsistentRecord.go, answers_getRecord hscope hn, hgot, Except.ok_bind,
      Except.ensure, hlt.le, hlt.ne', answers_recheck hn, hlisted, Except.mapError, hfind, hrise.le,
      hrise.ne', hnext]

end Fetch

end

theorem fetch_consistent (client : SyncHttpClient) (account : ApiCredentials)
    (listRecords : Except String LiveRecordIndex) (indexed : LiveRecordIndexEntry)
    : ∃ log result,
        (client.fetchConsistentRecord account indexed).run [] = (result, log)
          ∧ result = Attached.fetchConsistentRecord (client.answers account listRecords) indexed
          ∧ ConsistentFetch client account indexed log result := by
  have hstart : ([] : List Exchange).length % 2 = 0 := rfl
  rcases run_go indexed maxRecordFetchAttempts hstart with ⟨log, result, hrun, hfetch⟩
  refine ⟨log, result, hrun, (hfetch.go_eq listRecords rfl (le_refl 1)).symm, ?_⟩
  constructor
  case accepted =>
    intro fetched hresult
    exact hfetch.accepted hstart hresult
  case floor => exact List.isChain_iff_pairwise.mp (hfetch.floor_le hstart)
  case regression =>
    intro before exchange after revision hlog hrevision hlt
    exact hfetch.regression hstart hlog hrevision hlt
  case removed => exact hfetch.removed_iff hstart
  case alternating =>
    rw [List.range_eq_range']
    exact hfetch.eq_map_range
  case gets => exact hfetch.countP_isGet_le hstart
  case rechecks => exact hfetch.countP_isList_le hstart
  case rising =>
    intro revisions hlength hshown hrising
    apply hfetch.rising hstart hlength _ (List.isChain_iff_pairwise.mpr hrising)
    intro k hk
    rw [List.length_nil, Nat.zero_add]
    exact hshown k hk

end SyncHttpClient

end Attached
