import Attached.Library.SerdeLemmas
import Attached.Plugin.DiscoveryLemmas
import Attached.Protocol.AccountLemmas
import Attached.Ssh.Discovery
import Attached.Sync.CatalogLemmas

/-!
This module contains when the plugin can read back the snapshot that the exporter publishes: the hosts
of one endpoint have to agree on their label.
-/

open Std

namespace Attached

open Serde

def SyncedHost.toHost (host : SyncedHost) : DiscoveryHost where
  host := host.host
  endpointId := host.target
  sshTarget := attachedTarget host.target

section

variable {rfc3339 : DateTime → List UInt8}

theorem rowKeys_sorted : [Bytes.ofString "attached_version", Bytes.ofString "endpoint_id",
    Bytes.ofString "host", Bytes.ofString "published_at", Bytes.ofString "ssh_target"].Pairwise
      (· < ·) := by
  decide +kernel

theorem reportKeys_sorted : [Bytes.ofString "checked_at", Bytes.ofString "complete",
    Bytes.ofString "generation", Bytes.ofString "hosts", Bytes.ofString "version"].Pairwise
      (· < ·) := by
  decide +kernel

theorem toValue_publishedAtJson (publishedAt : Option DateTime)
    : (publishedAtJson rfc3339 publishedAt).toValue = publishedAtJson rfc3339 publishedAt := by
  cases publishedAt with
  | none => simp [publishedAtJson, Json.toValue]
  | some publishedAt => simp [publishedAtJson, Json.toValue]

def SyncedHost.toValue (rfc3339 : DateTime → List UInt8) (host : SyncedHost) : Json :=
  .object [
    textMember "attached_version" host.attachedVersion.text,
    textMember "endpoint_id" (Bytes.ofString host.target),
    textMember "host" (Bytes.ofString host.host),
    (Bytes.ofString "published_at", publishedAtJson rfc3339 host.publishedAt),
    textMember "ssh_target" (Bytes.ofString (attachedTarget host.target))
  ]

theorem toValue_toJson (host : SyncedHost)
    : (host.toJson rfc3339).toValue = host.toValue rfc3339 := by
  have hsorted := rowKeys_sorted
  simp only [List.pairwise_cons, List.mem_cons, List.not_mem_nil, or_false, forall_eq_or_imp,
    forall_eq] at hsorted
  rcases hsorted with ⟨⟨h12, _, h14, _⟩, ⟨h23, h24, h25⟩, ⟨h34, h35⟩, h45, _⟩
  simp only [SyncedHost.toJson, textMember, Json.toValue, Json.toValueMembers,
    toValue_publishedAtJson, Json.insertMember_nil, Json.insertMember_of_lt, Json.insertMember_of_gt,
    h12, h14, h23, h24, h25, h34, h35, h45]
  rfl

def report (rfc3339 : DateTime → List UInt8) (now : UnixTime) (hosts : List SyncedHost)
    (complete : Bool) : Json :=
  .object [
    numberMember "checked_at" now.seconds,
    (Bytes.ofString "complete", .bool complete),
    textMember "generation" (Bytes.numeral 10 now.nanos),
    (Bytes.ofString "hosts", .array (hosts.map (SyncedHost.toValue rfc3339))),
    numberMember "version" 1
  ]

theorem toValue_report {now : UnixTime} {hosts : List SyncedHost} {complete : Bool}
    : (Json.object [
        numberMember "version" 1,
        textMember "generation" (Bytes.numeral 10 now.nanos),
        numberMember "checked_at" now.seconds,
        (Bytes.ofString "complete", .bool complete),
        (Bytes.ofString "hosts", .array (hosts.map (SyncedHost.toJson rfc3339)))
      ]).toValue = report rfc3339 now hosts complete := by
  have hsorted := reportKeys_sorted
  simp only [List.pairwise_cons, List.mem_cons, List.not_mem_nil, or_false, forall_eq_or_imp,
    forall_eq] at hsorted
  rcases hsorted with ⟨⟨h12, h13, h14, _⟩, ⟨h23, h24, _⟩, ⟨h34, h35⟩, h45, _⟩
  have hrows : (hosts.map (SyncedHost.toJson rfc3339)).map Json.toValue
      = hosts.map (SyncedHost.toValue rfc3339) := by
    rw [List.map_map]
    exact List.map_congr_left fun host _ => toValue_toJson host
  simp only [numberMember, textMember, Json.toValue, Json.toValueMembers, Json.toValues_eq_map, hrows,
    Json.insertMember_nil, Json.insertMember_of_lt, Json.insertMember_of_gt, h12, h13, h14, h23, h24,
    h34, h35, h45]
  rfl

structure SyncedHost.WellFormed (host : SyncedHost) : Prop where
  label : validateHostLabel host.host = true
  target : ∃ identity : Vector UInt8 32, Bytes.ofString host.target = Bytes.hex identity.toList

theorem isPlain_of_label {b : UInt8}
    (h : (Bytes.isAsciiAlphanumeric b || b == 0x2e || b == 0x5f || b == 0x2d) = true)
    : Json.isPlain b = true := by
  revert b
  apply Bytes.forall_byte
  decide +kernel

theorem validateHostLabel_iff {label : String}
    : validateHostLabel label = true
        ↔
      (Bytes.ofString label).length ≤ maxHostLabelBytes
        ∧ (Bytes.ofString label).head?.any Bytes.isAsciiAlphanumeric = true
        ∧ (Bytes.ofString label).all (fun b =>
          Bytes.isAsciiAlphanumeric b || b == 0x2e || b == 0x5f || b == 0x2d) = true := by
  unfold validateHostLabel
  cases Bytes.ofString label with
  | nil => simp
  | cons first rest => simp [and_assoc]

namespace SyncedHost.WellFormed

variable {host : SyncedHost}

theorem isPlain_host (h : host.WellFormed) : (Bytes.ofString host.host).all Json.isPlain = true := by
  have hall := (validateHostLabel_iff.mp h.label).2.2
  rw [List.all_eq_true] at hall ⊢
  intro b hb
  exact isPlain_of_label (hall b hb)

theorem isPlain_target (h : host.WellFormed)
    : (Bytes.ofString host.target).all Json.isPlain = true := by
  rcases h.target with ⟨identity, htarget⟩
  rw [htarget, List.all_eq_true]
  intro b hb
  rcases Bytes.exists_of_mem_hex hb with ⟨d, hd, rfl⟩
  exact isPlain_hexDigit d hd

theorem isPlain_sshTarget (h : host.WellFormed)
    : (Bytes.ofString (attachedTarget host.target)).all Json.isPlain = true := by
  have hbegins : (Bytes.ofString "attached-").all Json.isPlain = true := by
    decide +kernel
  rw [attachedTarget, Bytes.ofString_append, List.all_append, hbegins, h.isPlain_target]
  rfl

theorem toHost (h : host.WellFormed) : host.toHost.WellFormed := by
  refine ⟨?_, ?_, rfl⟩
  . rcases h.target with ⟨identity, htarget⟩
    have hdigit : ∀ d < 16, (Bytes.isAsciiDigit (Bytes.hexDigit d)
        || (0x61 ≤ Bytes.hexDigit d && Bytes.hexDigit d ≤ 0x66)) = true := by
      decide
    simp only [isEndpoint, SyncedHost.toHost, htarget, Bytes.length_hex, Vector.length_toList,
      Bool.and_eq_true, beq_iff_eq, true_and, List.all_eq_true]
    intro b hb
    rcases Bytes.exists_of_mem_hex hb with ⟨d, hd, rfl⟩
    exact hdigit d hd
  . rcases validateHostLabel_iff.mp h.label with ⟨hlength, hhead, hall⟩
    have hempty : (Bytes.ofString host.host).isEmpty = false := by
      cases hbytes : Bytes.ofString host.host with
      | nil => simp [hbytes] at hhead
      | cons b rest => rfl
    simp only [DiscoveryHost.hasLabel, SyncedHost.toHost, hempty, hhead, hall, Bool.not_false,
      Bool.true_and, Bool.and_true]
    exact decide_eq_true hlength

end SyncedHost.WellFormed

theorem isPlain_version (version : AttachedVersion) : version.text.all Json.isPlain = true := by
  have hnumeral (n : Nat) : (Bytes.numeral 10 n).all Json.isPlain = true := by
    rw [List.all_eq_true]
    intro b hb
    rcases Bytes.exists_of_mem_numeral (by omega) hb with ⟨d, hd, rfl⟩
    exact isPlain_hexDigit d (by omega)
  have hdot : Json.isPlain 0x2e = true := by decide
  simp [AttachedVersion.text, List.all_append, hnumeral, hdot]

section

variable {depth : Nat}

theorem reads_publishedAtJson (hplain : ∀ time, (rfc3339 time).all Json.isPlain = true)
    (publishedAt : Option DateTime) : Json.Reads depth (publishedAtJson rfc3339 publishedAt) := by
  cases publishedAt with
  | none => exact Json.reads_null
  | some time => exact Json.reads_string (hplain time)

theorem reads_toJson (hplain : ∀ time, (rfc3339 time).all Json.isPlain = true) {host : SyncedHost}
    (h : host.WellFormed) (hdepth : 2 ≤ depth) : Json.Reads depth (host.toJson rfc3339) := by
  have hnames : [Bytes.ofString "host", Bytes.ofString "endpoint_id", Bytes.ofString "ssh_target",
      Bytes.ofString "attached_version", Bytes.ofString "published_at"].all
        (fun name => name.all Json.isPlain) = true := by
    decide +kernel
  simp only [List.all_cons, List.all_nil, Bool.and_true, Bool.and_eq_true] at hnames
  rcases hnames with ⟨hhost, hid, hssh, hversion, hpublished⟩
  apply Json.reads_object hdepth
  simp only [textMember, List.forall_mem_cons]
  exact ⟨⟨hhost, Json.reads_string h.isPlain_host⟩, ⟨hid, Json.reads_string h.isPlain_target⟩,
    ⟨hssh, Json.reads_string h.isPlain_sshTarget⟩,
    ⟨hversion, Json.reads_string (isPlain_version _)⟩,
    ⟨hpublished, reads_publishedAtJson hplain _⟩, List.forall_mem_nil _⟩

theorem reads_toValue (hplain : ∀ time, (rfc3339 time).all Json.isPlain = true) {host : SyncedHost}
    (h : host.WellFormed) (hdepth : 2 ≤ depth) : Json.Reads depth (host.toValue rfc3339) := by
  have hnames : [Bytes.ofString "host", Bytes.ofString "endpoint_id", Bytes.ofString "ssh_target",
      Bytes.ofString "attached_version", Bytes.ofString "published_at"].all
        (fun name => name.all Json.isPlain) = true := by
    decide +kernel
  simp only [List.all_cons, List.all_nil, Bool.and_true, Bool.and_eq_true] at hnames
  rcases hnames with ⟨hhost, hid, hssh, hversion, hpublished⟩
  apply Json.reads_object hdepth
  simp only [textMember, List.forall_mem_cons]
  exact ⟨⟨hversion, Json.reads_string (isPlain_version _)⟩, ⟨hid, Json.reads_string h.isPlain_target⟩,
    ⟨hhost, Json.reads_string h.isPlain_host⟩, ⟨hpublished, reads_publishedAtJson hplain _⟩,
    ⟨hssh, Json.reads_string h.isPlain_sshTarget⟩, List.forall_mem_nil _⟩

theorem isPlain_numeral (n : Nat) : (Bytes.numeral 10 n).all Json.isPlain = true := by
  rw [List.all_eq_true]
  intro b hb
  rcases Bytes.exists_of_mem_numeral (by omega) hb with ⟨d, hd, rfl⟩
  exact isPlain_hexDigit d (by omega)

theorem reads_report (hplain : ∀ time, (rfc3339 time).all Json.isPlain = true) {now : UnixTime}
    {hosts : List SyncedHost} {complete : Bool} (h : ∀ host ∈ hosts, host.WellFormed)
    : Json.Reads Json.maxDepth (report rfc3339 now hosts complete) := by
  have hnames : [Bytes.ofString "checked_at", Bytes.ofString "complete",
      Bytes.ofString "generation", Bytes.ofString "hosts", Bytes.ofString "version"].all
        (fun name => name.all Json.isPlain) = true := by
    decide +kernel
  simp only [List.all_cons, List.all_nil, Bool.and_true, Bool.and_eq_true] at hnames
  rcases hnames with ⟨hchecked, hcomplete, hgeneration, hhosts, hversion⟩
  have hrows : Json.Reads (Json.maxDepth - 1) (.array (hosts.map (SyncedHost.toValue rfc3339))) := by
    apply Json.reads_array (by decide)
    intro row hrow
    rcases List.mem_map.mp hrow with ⟨host, hhost, rfl⟩
    exact reads_toValue hplain (h host hhost) (by decide)
  apply Json.reads_object (by decide)
  simp only [textMember, numberMember, List.forall_mem_cons]
  exact ⟨⟨hchecked, Json.reads_number (Json.isNatural_numeral _)⟩, ⟨hcomplete, Json.reads_bool⟩,
    ⟨hgeneration, Json.reads_string (isPlain_numeral _)⟩, ⟨hhosts, hrows⟩,
    ⟨hversion, Json.reads_number (Json.isNatural_numeral _)⟩, List.forall_mem_nil _⟩

theorem publishDiscovery_eq (hplain : ∀ time, (rfc3339 time).all Json.isPlain = true) {now : UnixTime}
    {hosts : List SyncedHost} {complete : Bool} (h : ∀ host ∈ hosts, host.WellFormed)
    : ManagedConfig.publishDiscovery rfc3339 now hosts complete
        = .ok (report rfc3339 now hosts complete).print := by
  have hrows : Json.Reads Json.maxDepth (.array (hosts.map (SyncedHost.toJson rfc3339))) := by
    apply Json.reads_array (by decide)
    intro row hrow
    rcases List.mem_map.mp hrow with ⟨host, hhost, rfl⟩
    exact reads_toJson hplain (h host hhost) (by decide)
  unfold ManagedConfig.publishDiscovery renderJson
  rw [Json.parse_print_append hrows _ (by rfl)]
  exact congrArg (fun json => Except.ok json.print) toValue_report

end

theorem toString?_numeral (n : Nat)
    : ∃ text, Bytes.toString? (Bytes.numeral 10 n) = some text := by
  have hascii : Bytes.isAscii (Bytes.numeral 10 n) = true := by
    have hdigit : ∀ d < 10, decide (Bytes.hexDigit d < 0x80) = true := by
      decide
    apply List.all_eq_true.mpr
    intro b hb
    rcases Bytes.exists_of_mem_numeral (by omega) hb with ⟨d, hd, rfl⟩
    exact hdigit d hd
  exact Option.isSome_iff_exists.mp (Bytes.isSome_toString?_of_isAscii hascii)

theorem ofJson_toValue (host : SyncedHost)
    : DiscoveryHost.ofJson (host.toValue rfc3339) = some host.toHost := by
  simp [DiscoveryHost.ofJson, SyncedHost.toValue, asStruct, required, member, textMember, asString,
    SyncedHost.toHost]

theorem ofJson_report {now : UnixTime} {hosts : List SyncedHost} {complete : Bool} {generation : String}
    (hgeneration : Bytes.toString? (Bytes.numeral 10 now.nanos) = some generation)
    : Discovery.ofJson (report rfc3339 now hosts complete) = some {
        version := 1
        generation := generation
        checkedAt := now.seconds
        complete := complete
        hosts := hosts.map SyncedHost.toHost
      } := by
  have hversion : asUnsigned 4294967296 (.number (Bytes.numeral 10 1)) = some 1 :=
    asUnsigned_numeral (by decide)
  have hseconds : asUnsigned 18446744073709551616 (.number (Bytes.numeral 10 now.seconds))
      = some now.seconds := by
    apply asUnsigned_numeral
    have := now.bounded
    unfold UnixTime.seconds
    unfold u64Max at this
    omega
  have hhosts : (hosts.map (SyncedHost.toValue rfc3339)).mapM DiscoveryHost.ofJson
      = some (hosts.map SyncedHost.toHost) := by
    induction hosts with
    | nil => rfl
    | cons host hosts ih =>
      rw [List.map_cons, List.mapM_cons, ofJson_toValue, ih]
      rfl
  simp [Discovery.ofJson, report, asStruct, required, member, textMember, numberMember, asString,
    asBool, asArray, hgeneration, hhosts, hversion, hseconds]

theorem wellFormed_of_syncedHost {Ticket : Type} {iroh : Iroh Ticket} {idText : EndpointIdText}
    (hprints : ∀ ticket, idText.Prints (iroh.ticketIdentity ticket)) {catalog : Catalog}
    {account : AccountCredentials} (hvalid : Catalog.validate iroh catalog account = .ok ())
    {record : CatalogRecord} (hrecord : record ∈ catalog.records) {host : SyncedHost}
    (hsynced : record.syncedHost idText = .ok host) : host.WellFormed := by
  rcases CatalogRecord.syncedHost_eq_ok_iff.mp hsynced with ⟨target, htarget, rfl⟩
  have hvalidated := (Catalog.validate_eq_ok_iff.mp hvalid).2.2.2.2 record hrecord
  simp only [Catalog.validateRecord, Except.bind_eq_ok_iff, Except.ensure_eq_ok_iff,
    Except.okOr_eq_ok_iff, exists_const, Bool.and_eq_true, beq_iff_eq] at hvalidated
  rcases hvalidated with ⟨_, hlabel, _, _, _, ticket, _, _, hidentity⟩
  refine ⟨hlabel, record.endpointIdentity, ?_⟩
  rcases hprints ticket with ⟨text, htext, hhex⟩
  rw [hidentity, htarget, Option.some.injEq] at htext
  rw [htext, hhex, hidentity]

theorem wellFormed_of_listing {Ticket : Type} {iroh : Iroh Ticket} {idText : EndpointIdText}
    (hprints : ∀ ticket, idText.Prints (iroh.ticketIdentity ticket)) {catalog : Catalog}
    {account : AccountCredentials} (hvalid : Catalog.validate iroh catalog account = .ok ())
    {now : DateTime} {suppress : CatalogRecord → Bool} {hosts : List SyncedHost}
    (hhosts : catalog.hostsWithFilter idText now suppress = .ok hosts)
    : ∀ host ∈ hosts, host.WellFormed := by
  intro host hmem
  rcases (Catalog.mem_of_hostsWithFilter hhosts).mp hmem with ⟨record, hrecord, _, hsynced⟩
  exact wellFormed_of_syncedHost hprints hvalid hrecord hsynced

theorem read_report (hplain : ∀ time, (rfc3339 time).all Json.isPlain = true) {now : UnixTime}
    {hosts : List SyncedHost} {complete : Bool} (hwellFormed : ∀ host ∈ hosts, host.WellFormed)
    {generation : String} (hgeneration : Bytes.toString? (Bytes.numeral 10 now.nanos) = some generation)
    : (Json.parse (report rfc3339 now hosts complete).print >>= Discovery.ofJson) = some {
        version := 1
        generation := generation
        checkedAt := now.seconds
        complete := complete
        hosts := hosts.map SyncedHost.toHost
      } := by
  rw [Json.parse_print (reads_report hplain hwellFormed)]
  exact ofJson_report hgeneration

theorem agree_of_parse {hosts : List SyncedHost} (hwellFormed : ∀ host ∈ hosts, host.WellFormed)
    (hplain : ∀ time, (rfc3339 time).all Json.isPlain = true) {complete : Bool} {published : UnixTime}
    {seconds : Nat} {output : List UInt8} {discovery : Discovery}
    (houtput : ManagedConfig.publishDiscovery rfc3339 published hosts complete = .ok output)
    (hparse : Discovery.parse output seconds = .ok discovery)
    : ∀ a ∈ hosts, ∀ b ∈ hosts, a.target = b.target → a.host = b.host := by
  intro a ha b hb htarget
  rw [publishDiscovery_eq hplain hwellFormed, Except.ok.injEq] at houtput
  subst houtput
  rcases toString?_numeral published.nanos with ⟨generation, hgeneration⟩
  rcases Discovery.parse_eq_ok_iff.mp hparse with ⟨_, valid, hsome, _, _, _, _, _, hvalidate, _⟩
  rw [read_report hplain hwellFormed hgeneration, Option.some.injEq] at hsome
  subst hsome
  have hagree := (Discovery.exists_validateHosts_iff.mp ⟨valid, hvalidate⟩).2
  have hsame := hagree a.toHost (List.mem_map_of_mem ha) b.toHost (List.mem_map_of_mem hb) htarget
  exact congrArg DiscoveryHost.host hsame

theorem parse_of_agree {hosts : List SyncedHost} (hwellFormed : ∀ host ∈ hosts, host.WellFormed)
    (hplain : ∀ time, (rfc3339 time).all Json.isPlain = true) (complete : Bool)
    {published read : UnixTime} (hafter : published.nanos ≤ read.nanos)
    (hfresh : read.nanos ≤ published.nanos + 90 * 1000000000)
    (hagree : ∀ a ∈ hosts, ∀ b ∈ hosts, a.target = b.target → a.host = b.host)
    : ∃ output discovery, ManagedConfig.publishDiscovery rfc3339 published hosts complete = .ok output
        ∧ Discovery.parse output read.seconds = .ok discovery
        ∧ discovery.complete = complete
        ∧ Bytes.ofString discovery.generation = Bytes.numeral 10 published.nanos
        ∧ (∀ host, host ∈ discovery.hosts ↔ ∃ synced ∈ hosts, synced.toHost = host)
        ∧ (discovery.hosts.map DiscoveryHost.endpointId).Nodup := by
  rcases toString?_numeral published.nanos with ⟨generation, hgeneration⟩
  have hbytes := Bytes.toString?_eq_some_iff.mp hgeneration
  have hnonempty : generation ≠ "" := by
    rintro rfl
    exact Bytes.numeral_ne_nil 10 published.nanos hbytes.symm
  have hlength : (Bytes.ofString generation).length ≤ 64 := by
    rw [hbytes]
    apply Bytes.length_numeral_le (by decide)
    have := published.bounded
    unfold u64Max at this
    omega
  have hage : published.seconds ≤ read.seconds ∧ read.seconds - published.seconds ≤ 90 := by
    unfold UnixTime.seconds
    omega
  have hexists : ∃ valid, Discovery.validateHosts (hosts.map SyncedHost.toHost) = .ok valid := by
    apply Discovery.exists_validateHosts_iff.mpr
    constructor
    . intro host hmem
      rcases List.mem_map.mp hmem with ⟨synced, hsynced, rfl⟩
      exact (hwellFormed synced hsynced).toHost
    . intro a ha b hb htarget
      rcases List.mem_map.mp ha with ⟨a, ha', rfl⟩
      rcases List.mem_map.mp hb with ⟨b, hb', rfl⟩
      have hlabel := hagree a ha' b hb' htarget
      simp only [SyncedHost.toHost] at htarget ⊢
      rw [hlabel, htarget]
  rcases hexists with ⟨valid, hvalidate⟩
  rcases Discovery.validateHosts_eq_ok hvalidate with ⟨hmem, hnodup⟩
  refine ⟨_, _, publishDiscovery_eq hplain hwellFormed, Discovery.parse_eq_ok_iff.mpr
    ⟨_, valid, read_report hplain hwellFormed hgeneration, rfl, hnonempty, hlength, hage.1, hage.2,
      hvalidate, rfl⟩, rfl, hbytes, ?_, hnodup⟩
  intro host
  rw [hmem, List.mem_map]

end

theorem published_snapshot_readable_iff {Ticket : Type} {iroh : Iroh Ticket} {idText : EndpointIdText}
    (hprints : ∀ ticket, idText.Prints (iroh.ticketIdentity ticket))
    {rfc3339 : DateTime → List UInt8} (hplain : ∀ time, (rfc3339 time).all Json.isPlain = true)
    {catalog : Catalog} {account : AccountCredentials}
    (hvalid : Catalog.validate iroh catalog account = .ok ()) {listedAt : DateTime}
    {isActive : CatalogRecord → Option Bool} {listing : HostListing}
    (hlisting : catalog.hostsExcludingLocalEndpoints idText listedAt isActive = .ok listing)
    (complete : Bool) {published read : UnixTime} (hafter : published.nanos ≤ read.nanos)
    (hfresh : read.nanos ≤ published.nanos + 90 * 1000000000)
    : (∃ output discovery,
        ManagedConfig.publishDiscovery rfc3339 published listing.hosts complete = .ok output
          ∧ Discovery.parse output read.seconds = .ok discovery
          ∧ discovery.complete = complete
          ∧ Bytes.ofString discovery.generation = Bytes.numeral 10 published.nanos
          ∧ (∀ host, host ∈ discovery.hosts ↔ ∃ synced ∈ listing.hosts, synced.toHost = host)
          ∧ (discovery.hosts.map DiscoveryHost.endpointId).Nodup)
        ↔
      ∀ a ∈ listing.hosts, ∀ b ∈ listing.hosts, a.target = b.target → a.host = b.host := by
  simp only [Catalog.hostsExcludingLocalEndpoints, Except.bind_eq_ok_iff,
    Except.pure_eq_ok_iff] at hlisting
  rcases hlisting with ⟨hosts, hhosts, rfl⟩
  have hwellFormed := wellFormed_of_listing hprints hvalid hhosts
  constructor
  . rintro ⟨output, discovery, houtput, hparse, _⟩
    exact agree_of_parse hwellFormed hplain houtput hparse
  . intro hagree
    exact parse_of_agree hwellFormed hplain complete hafter hfresh hagree

namespace Fixture

def idText (identity : Vector UInt8 32) : Option String :=
  if identity = Fixture.identity then
    some "ae58ff8833241ac82d6ff7611046ed67b5072d142c588d0063e942d9a75502b6"
  else
    none

def rfc3339 (time : DateTime) : List UInt8 :=
  if time = Fixture.time 0 then Bytes.ofString "2023-11-14T22:13:20Z" else []

def listedRecord (id : UInt8) (label : String) : CatalogRecord where
  recordId := ⟨.replicate 16 id⟩
  serviceRevision := 1
  hostLabel := label
  publishedAt := some (time 0)
  expiresAt := time 300
  endpointTicket := ticket
  endpointIdentity := identity
  attachCapability := .replicate 32 2
  attachedVersion := ⟨0, 1, 0⟩
  sshEnabled := true

def listedAccount : AccountCredentials where
  serviceOrigin := "https://sync.example"
  accountId := ⟨.replicate 16 1⟩
  accountRootKey := .replicate 32 3

def listedCatalog (records : List CatalogRecord) : Catalog where
  accountId := listedAccount.accountId
  serviceOrigin := listedAccount.serviceOrigin
  generation := 1
  records := records

def listed (label : String) : SyncedHost where
  target := "ae58ff8833241ac82d6ff7611046ed67b5072d142c588d0063e942d9a75502b6"
  host := label
  attachedVersion := ⟨0, 1, 0⟩
  publishedAt := some (time 0)

def unixTime (seconds : Fin 1000) : UnixTime where
  nanos := (1700000000 + seconds) * 1000000000
  bounded := by
    unfold u64Max
    omega

end Fixture

theorem Fixture.prints (ticket : Unit)
    : EndpointIdText.Prints Fixture.idText (Fixture.iroh.ticketIdentity ticket) := by
  refine ⟨"ae58ff8833241ac82d6ff7611046ed67b5072d142c588d0063e942d9a75502b6", rfl, ?_⟩
  cases ticket
  decide +kernel

theorem Fixture.isPlain_rfc3339 (time : DateTime)
    : (Fixture.rfc3339 time).all Json.isPlain = true := by
  unfold Fixture.rfc3339
  split
  . decide +kernel
  . rfl

/--
Two records of one endpoint with different labels make the snapshot unreadable.
-/
theorem published_snapshot_unreadable
    : Catalog.validate Fixture.iroh
          (Fixture.listedCatalog [Fixture.listedRecord 1 "Laptop", Fixture.listedRecord 2 "Office"])
          Fixture.listedAccount = .ok ()
        ∧ (Fixture.listedCatalog [Fixture.listedRecord 1 "Laptop", Fixture.listedRecord 2 "Office"]
            ).hostsExcludingLocalEndpoints Fixture.idText (Fixture.time 10) (fun _ => some false)
              = .ok ⟨[Fixture.listed "Laptop", Fixture.listed "Office"], false⟩
        ∧ ¬∃ output discovery, ManagedConfig.publishDiscovery Fixture.rfc3339 (Fixture.unixTime 10)
              [Fixture.listed "Laptop", Fixture.listed "Office"] true = .ok output
            ∧ Discovery.parse output (Fixture.unixTime 20).seconds = .ok discovery := by
  have hvalid : Catalog.validate Fixture.iroh
      (Fixture.listedCatalog [Fixture.listedRecord 1 "Laptop", Fixture.listedRecord 2 "Office"])
      Fixture.listedAccount = .ok () := by
    decide +kernel
  have hlisting : (Fixture.listedCatalog [Fixture.listedRecord 1 "Laptop", Fixture.listedRecord 2 "Office"]
      ).hostsWithFilter Fixture.idText (Fixture.time 10) (fun _ => false)
        = .ok [Fixture.listed "Laptop", Fixture.listed "Office"] := by
    decide +kernel
  refine ⟨hvalid, by decide +kernel, ?_⟩
  rintro ⟨output, discovery, houtput, hparse⟩
  have hagree := agree_of_parse (wellFormed_of_listing Fixture.prints hvalid hlisting)
    Fixture.isPlain_rfc3339 houtput hparse (Fixture.listed "Laptop") (by simp)
    (Fixture.listed "Office") (by simp) rfl
  exact absurd hagree (by decide)

theorem published_snapshot_readable_office
    : ∃ output discovery, ManagedConfig.publishDiscovery Fixture.rfc3339 (Fixture.unixTime 10)
          [Fixture.listed "Office"] true = .ok output
        ∧ Discovery.parse output (Fixture.unixTime 20).seconds = .ok discovery
        ∧ discovery.complete = true
        ∧ Bytes.ofString discovery.generation = Bytes.numeral 10 (Fixture.unixTime 10).nanos
        ∧ (∀ host, host ∈ discovery.hosts ↔ ∃ synced ∈ [Fixture.listed "Office"], synced.toHost = host)
        ∧ (discovery.hosts.map DiscoveryHost.endpointId).Nodup := by
  have hvalid : Catalog.validate Fixture.iroh
      (Fixture.listedCatalog [Fixture.listedRecord 1 "Office"]) Fixture.listedAccount = .ok () := by
    decide +kernel
  have hlisting : (Fixture.listedCatalog [Fixture.listedRecord 1 "Office"]).hostsExcludingLocalEndpoints
      Fixture.idText (Fixture.time 10) (fun _ => some false) = .ok ⟨[Fixture.listed "Office"], false⟩ := by
    decide +kernel
  have hafter : (Fixture.unixTime 10).nanos ≤ (Fixture.unixTime 20).nanos := by
    decide +kernel
  have hfresh : (Fixture.unixTime 20).nanos ≤ (Fixture.unixTime 10).nanos + 90 * 1000000000 := by
    decide +kernel
  exact (published_snapshot_readable_iff Fixture.prints Fixture.isPlain_rfc3339 hvalid hlisting true
    hafter hfresh).mpr (by decide +kernel)

end Attached
