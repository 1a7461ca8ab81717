import Attached.Plugin.DiscoveryLemmas
import Attached.Plugin.Reconciler
import Attached.Ssh.DiscoveryLemmas
import Attached.Ssh.ExportLemmas

/-!
This module contains when the aliases of labels that the plugin relies on are exported: the exporter
and the plugin look at different hosts, and read endpoint ids with different parsers.
-/

open Std

namespace Attached

structure DiscoverTimes where
  listedAt : DateTime
  completedAt : DateTime
  recheckedAt : SyncedHost → DateTime

namespace Exporter

section

variable {Ticket : Type} (iroh : Iroh Ticket) (catalog : Catalog)

def advertise (recheckedAt : SyncedHost → DateTime) (hosts : List SyncedHost) (snapshot : Snapshot)
    : Snapshot :=
  match hosts with
  | [] => snapshot
  | host :: hosts =>
    match catalog.host iroh host.target (recheckedAt host) with
    | .ok connection =>
      if connection.sshEnabled then
        advertise recheckedAt hosts
          (snapshot.insert host.target { label := host.host, connection := connection })
      else
        advertise recheckedAt hosts snapshot
    | .error _ => advertise recheckedAt hosts snapshot

/--
`discover` once the refresh has stored the catalog: the snapshot of the exporter, and the listing that
is published for the plugin.
-/
def discover (idText : EndpointIdText) (times : DiscoverTimes)
    (isActive : CatalogRecord → Option Bool) : Except Failure (Snapshot × HostListing) := do
  let listing ← catalog.hostsExcludingLocalEndpoints idText times.listedAt isActive
  let hosts ← catalog.allSshHosts idText times.completedAt
  return (advertise iroh catalog times.recheckedAt hosts ∅, listing)

def Resolves (recheckedAt : SyncedHost → DateTime) (host : SyncedHost) : Prop :=
  ∃ connection, catalog.host iroh host.target (recheckedAt host) = .ok connection
    ∧ connection.sshEnabled = true

/--
The record decides on the label that its endpoint has in the snapshot: it is listed and its target
resolves, and no other such record of the endpoint has a greater label.
-/
structure Exports (idText : EndpointIdText) (times : DiscoverTimes) (record : CatalogRecord)
    (host : SyncedHost) : Prop where
  mem : record ∈ catalog.records
  listed : record.isListed times.completedAt (fun _ => false) = true
  synced : record.syncedHost idText = .ok host
  resolves : Resolves iroh catalog times.recheckedAt host
  greatest : ∀ other ∈ catalog.records, other.isListed times.completedAt (fun _ => false) = true →
    ∀ host', other.syncedHost idText = .ok host' → host'.target = host.target →
      Resolves iroh catalog times.recheckedAt host' → host'.le host = true

end

def patterns (aliases : String) : List String :=
  (aliases.toList.splitOn ' ').map String.ofList

def HasAlias {Ticket : Type} (iroh : Iroh Ticket) (snapshot : Snapshot) (endpointId pattern : String)
    : Prop :=
  ∃ names text, aliases iroh snapshot = .ok names ∧ names[endpointId]? = some text
    ∧ pattern ∈ patterns text

def Reaches {Ticket : Type} (iroh : Iroh Ticket) (snapshot : Snapshot) (endpointId pattern : String)
    : Prop :=
  HasAlias iroh snapshot endpointId pattern
    ∧ ∀ other, HasAlias iroh snapshot other pattern → other = endpointId

section

variable {Ticket : Type} {iroh : Iroh Ticket} {catalog : Catalog} {idText : EndpointIdText}
  {times : DiscoverTimes} {recheckedAt : SyncedHost → DateTime} {hosts : List SyncedHost}
  {snapshot : Snapshot} {target : String} {advertisement : Advertisement}

theorem advertise_cons (host : SyncedHost) (hosts : List SyncedHost) (snapshot : Snapshot)
    : (∃ connection, Resolves iroh catalog recheckedAt host
        ∧ advertise iroh catalog recheckedAt (host :: hosts) snapshot
          = advertise iroh catalog recheckedAt hosts
            (snapshot.insert host.target { label := host.host, connection := connection }))
      ∨ (¬Resolves iroh catalog recheckedAt host
        ∧ advertise iroh catalog recheckedAt (host :: hosts) snapshot
          = advertise iroh catalog recheckedAt hosts snapshot) := by
  unfold Resolves
  simp only [advertise]
  split
  . next connection hconnection =>
    split
    . next hssh => exact Or.inl ⟨connection, ⟨connection, hconnection, hssh⟩, rfl⟩
    . next hssh =>
      refine Or.inr ⟨?_, rfl⟩
      rintro ⟨connection', hconnection', hssh'⟩
      rw [hconnection, Except.ok.injEq] at hconnection'
      rw [hconnection'] at hssh
      exact hssh hssh'
  . next message hmessage =>
    refine Or.inr ⟨?_, rfl⟩
    rintro ⟨connection', hconnection', _⟩
    rw [hmessage] at hconnection'
    simp at hconnection'

theorem exists_of_advertise (hsorted : hosts.Pairwise fun a b => a.le b = true)
    (h : (advertise iroh catalog recheckedAt hosts snapshot)[target]? = some advertisement)
    : (∃ host ∈ hosts, host.target = target ∧ advertisement.label = host.host
        ∧ Resolves iroh catalog recheckedAt host
        ∧ ∀ host' ∈ hosts, host'.target = target → Resolves iroh catalog recheckedAt host' →
          host'.le host = true)
      ∨ ((∀ host ∈ hosts, host.target = target → ¬Resolves iroh catalog recheckedAt host)
        ∧ snapshot[target]? = some advertisement) := by
  induction hosts generalizing snapshot with
  | nil => exact Or.inr ⟨by simp, h⟩
  | cons first hosts ih =>
    rw [List.pairwise_cons] at hsorted
    have hkeep (hlast : ∃ host ∈ hosts, host.target = target ∧ advertisement.label = host.host
          ∧ Resolves iroh catalog recheckedAt host
          ∧ ∀ host' ∈ hosts, host'.target = target → Resolves iroh catalog recheckedAt host' →
            host'.le host = true)
        : ∃ host ∈ first :: hosts, host.target = target ∧ advertisement.label = host.host
          ∧ Resolves iroh catalog recheckedAt host
          ∧ ∀ host' ∈ first :: hosts, host'.target = target → Resolves iroh catalog recheckedAt host' →
            host'.le host = true := by
      rcases hlast with ⟨host, hmem, htarget, hlabel, hresolves, hgreatest⟩
      refine ⟨host, List.mem_cons_of_mem _ hmem, htarget, hlabel, hresolves, ?_⟩
      intro host' hmem' htarget' hresolves'
      rcases List.mem_cons.mp hmem' with rfl | hmem'
      . exact hsorted.1 host hmem
      . exact hgreatest host' hmem' htarget' hresolves'
    rcases advertise_cons first hosts snapshot with
      ⟨connection, hresolves, heq⟩ | ⟨hunresolved, heq⟩
    . rw [heq] at h
      rcases ih hsorted.2 h with hlast | ⟨hnone, hinserted⟩
      . exact Or.inl (hkeep hlast)
      . rw [TreeMap.getElem?_insert] at hinserted
        split at hinserted
        . next htarget =>
          have htarget := LawfulEqOrd.eq_of_compare htarget
          injection hinserted with hinserted
          refine Or.inl ⟨first, List.mem_cons_self, htarget, by rw [← hinserted], hresolves, ?_⟩
          intro host' hmem' htarget' hresolves'
          rcases List.mem_cons.mp hmem' with rfl | hmem'
          . exact SyncedHost.le_refl _
          . exact absurd hresolves' (hnone host' hmem' htarget')
        . next htarget =>
          refine Or.inr ⟨?_, hinserted⟩
          intro host hmem htarget'
          rcases List.mem_cons.mp hmem with rfl | hmem
          . rw [htarget'] at htarget
            exact absurd compare_self htarget
          . exact hnone host hmem htarget'
    . rw [heq] at h
      rcases ih hsorted.2 h with hlast | ⟨hnone, hsnapshot⟩
      . exact Or.inl (hkeep hlast)
      . refine Or.inr ⟨?_, hsnapshot⟩
        intro host hmem htarget
        rcases List.mem_cons.mp hmem with rfl | hmem
        . exact hunresolved
        . exact hnone host hmem htarget

theorem mem_advertise (h : target ∈ snapshot
      ∨ ∃ host ∈ hosts, host.target = target ∧ Resolves iroh catalog recheckedAt host)
    : target ∈ advertise iroh catalog recheckedAt hosts snapshot := by
  induction hosts generalizing snapshot with
  | nil => simpa [advertise] using h
  | cons first hosts ih =>
    rcases advertise_cons first hosts snapshot with
      ⟨connection, hresolves, heq⟩ | ⟨hunresolved, heq⟩
    . rw [heq]
      apply ih
      rw [TreeMap.mem_insert]
      rcases h with hmem | ⟨host, hmem, htarget, hhost⟩
      . exact Or.inl (Or.inr hmem)
      . rcases List.mem_cons.mp hmem with rfl | hmem
        . rw [htarget]
          exact Or.inl (Or.inl compare_self)
        . exact Or.inr ⟨host, hmem, htarget, hhost⟩
    . rw [heq]
      apply ih
      rcases h with hmem | ⟨host, hmem, htarget, hhost⟩
      . exact Or.inl hmem
      . rcases List.mem_cons.mp hmem with rfl | hmem
        . exact absurd hhost hunresolved
        . exact Or.inr ⟨host, hmem, htarget, hhost⟩

def IsPattern (text : String) : Prop :=
  ' ' ∉ text.toList

theorem isPattern_of_bytes {text : String} (h : ∀ b ∈ Bytes.ofString text, b ≠ 0x20)
    : IsPattern text := by
  intro hmem
  rcases List.append_of_mem hmem with ⟨before, after, htext⟩
  have hsplit : text = String.ofList before ++ " " ++ String.ofList after := by
    rw [← String.ofList_toList (s := text), htext]
    simp [← String.toList_inj]
  have hspace : (0x20 : UInt8) ∈ Bytes.ofString " " := by
    decide +kernel
  apply h 0x20 _ rfl
  rw [hsplit, Bytes.ofString_append, Bytes.ofString_append]
  simp [hspace]

theorem toLower_eq_space {c : Char} (h : c.toLower = ' ') : c = ' ' := by
  unfold Char.toLower at h
  split at h
  . next hupper =>
    have hval := congrArg (fun c : Char => c.val.toNat) h
    have hupper' : 65 ≤ c.val.toNat ∧ c.val.toNat ≤ 90 := hupper
    simp only [UInt32.toNat_add] at hval
    have hshift : ('a'.val - 'A'.val).toNat = 32 := rfl
    have hspace : (' ' : Char).val.toNat = 32 := rfl
    omega
  . exact h

theorem IsPattern.toAsciiLowercase {text : String} (h : IsPattern text)
    : IsPattern (toAsciiLowercase text) := by
  unfold IsPattern Attached.toAsciiLowercase
  rw [String.toList_ofList, List.mem_map]
  rintro ⟨c, hmem, hc⟩
  rw [toLower_eq_space hc] at hmem
  exact h hmem

theorem IsPattern.attachedTarget {name : String} (h : IsPattern name)
    : IsPattern (attachedTarget name) := by
  unfold IsPattern Attached.attachedTarget
  rw [String.toList_append, List.mem_append, not_or]
  exact ⟨by decide, h⟩

theorem patterns_eq {text : String} (h : IsPattern text) : patterns text = [text] := by
  unfold patterns
  rw [List.splitOn_eq_singleton h]
  simp

theorem patterns_append {a b : String} (ha : IsPattern a) (hb : IsPattern b)
    : patterns (a ++ " " ++ b) = [a, b] := by
  have htext : (a ++ " " ++ b).toList = a.toList ++ ' ' :: b.toList := by
    simp
  unfold patterns
  rw [htext, List.splitOn_append_cons_self_of_not_mem ha, List.splitOn_eq_singleton hb]
  simp

theorem attachedTarget_inj {a b : String} : attachedTarget a = attachedTarget b ↔ a = b := by
  simp [attachedTarget, ← String.toList_inj]

theorem mem_patterns_aliasesOf {label : String} (htarget : IsPattern target)
    (hlabel : IsPattern advertisement.label)
    : attachedTarget label ∈ patterns (aliasesOf iroh snapshot target advertisement)
        ↔
      label = target
        ∨ (toAsciiLowercase advertisement.label = label
          ∧ labelCount (Keyed.intoValues snapshot) label = 1 ∧ iroh.endpointIdFromStr label = none) := by
  unfold aliasesOf
  split
  . next hallowed =>
    rw [patterns_append htarget.attachedTarget hlabel.toAsciiLowercase.attachedTarget]
    simp only [List.mem_cons, List.not_mem_nil, or_false, attachedTarget_inj]
    constructor
    . rintro (rfl | rfl)
      . exact Or.inl rfl
      . exact Or.inr ⟨rfl, hallowed⟩
    . rintro (rfl | ⟨rfl, _⟩)
      . exact Or.inl rfl
      . exact Or.inr rfl
  . next hdenied =>
    rw [patterns_eq htarget.attachedTarget, List.mem_singleton, attachedTarget_inj]
    constructor
    . exact Or.inl
    . rintro (htarget' | ⟨rfl, hallowed⟩)
      . exact htarget'
      . exact absurd hallowed hdenied

theorem label_of_discover {isActive : CatalogRecord → Option Bool} {listing : HostListing}
    (h : discover iroh catalog idText times isActive = .ok (snapshot, listing)) {label : String}
    : (∃ advertisement, snapshot[target]? = some advertisement ∧ advertisement.label = label)
        ↔
      ∃ record host, Exports iroh catalog idText times record host ∧ host.target = target
        ∧ host.host = label := by
  simp only [discover, Except.bind_eq_ok_iff, Except.pure_eq_ok_iff, Prod.mk.injEq] at h
  rcases h with ⟨_, _, hosts, hhosts, rfl, _⟩
  have hmem {host : SyncedHost} : host ∈ hosts ↔ _ := Catalog.mem_of_hostsWithFilter hhosts
  have hsorted := Catalog.sorted_hostsWithFilter hhosts
  have hlabel {advertisement : Advertisement}
      (hadvertisement : (advertise iroh catalog times.recheckedAt hosts ∅)[target]?
        = some advertisement)
      : ∃ record host, Exports iroh catalog idText times record host ∧ host.target = target
        ∧ host.host = advertisement.label := by
    rcases exists_of_advertise hsorted hadvertisement with
      ⟨host, hhost, htarget, hlabel, hresolves, hgreatest⟩ | ⟨_, hempty⟩
    . rcases hmem.mp hhost with ⟨record, hrecord, hlisted, hsynced⟩
      refine ⟨record, host, ⟨hrecord, hlisted, hsynced, hresolves, ?_⟩, htarget, hlabel.symm⟩
      intro other hother hlisted' host' hsynced' htarget' hresolves'
      exact hgreatest host' (hmem.mpr ⟨other, hother, hlisted', hsynced'⟩) (htarget'.trans htarget)
        hresolves'
    . simp at hempty
  constructor
  . rintro ⟨advertisement, hadvertisement, rfl⟩
    exact hlabel hadvertisement
  . rintro ⟨record, host, hexports, htarget, rfl⟩
    have hhost : host ∈ hosts := hmem.mpr ⟨record, hexports.mem, hexports.listed, hexports.synced⟩
    have hsome : target ∈ advertise iroh catalog times.recheckedAt hosts ∅ :=
      mem_advertise (Or.inr ⟨host, hhost, htarget, hexports.resolves⟩)
    rw [TreeMap.mem_iff_isSome_getElem?, Option.isSome_iff_exists] at hsome
    rcases hsome with ⟨advertisement, hadvertisement⟩
    refine ⟨advertisement, hadvertisement, ?_⟩
    rcases hlabel hadvertisement with ⟨record', host', hexports', htarget', hlabel'⟩
    rw [← hlabel']
    apply SyncedHost.host_eq_of_le
    . exact hexports.greatest record' hexports'.mem hexports'.listed host' hexports'.synced
        (htarget'.trans htarget.symm) hexports'.resolves
    . exact hexports'.greatest record hexports.mem hexports.listed host hexports.synced
        (htarget.trans htarget'.symm) hexports.resolves

theorem labelCount_eq_one_iff {label : String} (h : snapshot[target]? = some advertisement)
    (hlabel : toAsciiLowercase advertisement.label = label)
    : labelCount (Keyed.intoValues snapshot) label = 1
        ↔
      ∀ (other : String) (advertisement' : Advertisement), snapshot[other]? = some advertisement' →
        toAsciiLowercase advertisement'.label = label → other = target := by
  have hnodup : (snapshot.toList.map Prod.fst).Nodup := by
    rw [TreeMap.map_fst_toList_eq_keys]
    exact TreeMap.nodup_keys
  unfold labelCount Keyed.intoValues
  rw [List.countP_map, Keyed.countP_eq_one_iff hnodup
    (TreeMap.mem_toList_iff_getElem?_eq_some.mpr h) (by simpa using hlabel)]
  simp only [Prod.forall, TreeMap.mem_toList_iff_getElem?_eq_some, Function.comp, beq_iff_eq]

theorem hasAlias_iff {label : String}
    (hpatterns : ∀ (target : String) (advertisement : Advertisement),
      snapshot[target]? = some advertisement → IsPattern target ∧ IsPattern advertisement.label)
    : HasAlias iroh snapshot target (attachedTarget label)
        ↔
      ∃ advertisement, snapshot[target]? = some advertisement
        ∧ (label = target
          ∨ (toAsciiLowercase advertisement.label = label
            ∧ labelCount (Keyed.intoValues snapshot) label = 1
            ∧ iroh.endpointIdFromStr label = none)) := by
  unfold HasAlias
  constructor
  . rintro ⟨names, text, hnames, htext, hmem⟩
    rw [getElem?_of_aliases iroh hnames, Option.map_eq_some_iff] at htext
    rcases htext with ⟨advertisement, hadvertisement, rfl⟩
    have hentry := hpatterns target advertisement hadvertisement
    exact ⟨advertisement, hadvertisement, (mem_patterns_aliasesOf hentry.1 hentry.2).mp hmem⟩
  . rintro ⟨advertisement, hadvertisement, hlabel⟩
    have hentry := hpatterns target advertisement hadvertisement
    refine ⟨_, aliasesOf iroh snapshot target advertisement, aliases_eq iroh, ?_,
      (mem_patterns_aliasesOf hentry.1 hentry.2).mpr hlabel⟩
    rw [getElem?_of_aliases iroh (aliases_eq iroh), hadvertisement]
    rfl

end

end Exporter

theorem SyncedHost.WellFormed.isPattern {host : SyncedHost} (h : host.WellFormed)
    : Exporter.IsPattern host.target ∧ Exporter.IsPattern host.host := by
  constructor
  . rcases h.target with ⟨identity, htarget⟩
    have hdigit : ∀ d < 16, Bytes.hexDigit d ≠ 0x20 := by
      decide
    apply Exporter.isPattern_of_bytes
    intro b hb
    rw [htarget] at hb
    rcases Bytes.exists_of_mem_hex hb with ⟨d, hd, rfl⟩
    exact hdigit d hd
  . have hall := (validateHostLabel_iff.mp h.label).2.2
    rw [List.all_eq_true] at hall
    apply Exporter.isPattern_of_bytes
    rintro b hb rfl
    exact absurd (hall _ hb) (by decide)

section

open Exporter

variable {Ticket : Type} {iroh : Iroh Ticket} {idText : EndpointIdText} {catalog : Catalog}
  {account : AccountCredentials} {times : DiscoverTimes} {isActive : CatalogRecord → Option Bool}
  {snapshot : Snapshot} {listing : HostListing}

def PluginLists (times : DiscoverTimes) (isActive : CatalogRecord → Option Bool)
    (record : CatalogRecord) : Prop :=
  record.isListed times.listedAt (fun record => (isActive record).getD false) = true

theorem wellFormed_of_snapshot (hprints : ∀ ticket, idText.Prints (iroh.ticketIdentity ticket))
    (hvalid : Catalog.validate iroh catalog account = .ok ())
    (hdiscover : discover iroh catalog idText times isActive = .ok (snapshot, listing))
    {target : String} {advertisement : Advertisement} (h : snapshot[target]? = some advertisement)
    : ∃ synced : SyncedHost, synced.WellFormed ∧ synced.target = target
      ∧ synced.host = advertisement.label := by
  rcases (label_of_discover hdiscover).mp ⟨advertisement, h, rfl⟩ with
    ⟨record, synced, hexports, htarget, hlabel⟩
  exact ⟨synced, wellFormed_of_syncedHost hprints hvalid hexports.mem hexports.synced, htarget,
    hlabel⟩

theorem isPattern_of_snapshot (hprints : ∀ ticket, idText.Prints (iroh.ticketIdentity ticket))
    (hvalid : Catalog.validate iroh catalog account = .ok ())
    (hdiscover : discover iroh catalog idText times isActive = .ok (snapshot, listing))
    (target : String) (advertisement : Advertisement) (h : snapshot[target]? = some advertisement)
    : IsPattern target ∧ IsPattern advertisement.label := by
  rcases wellFormed_of_snapshot hprints hvalid hdiscover h with ⟨synced, hsynced, rfl, hlabel⟩
  rw [← hlabel]
  exact hsynced.isPattern

theorem mem_of_validateHosts (hdiscover : discover iroh catalog idText times isActive
      = .ok (snapshot, listing)) {hosts : List DiscoveryHost}
    (hread : Discovery.validateHosts (listing.hosts.map SyncedHost.toHost) = .ok hosts)
    {host : DiscoveryHost}
    : host ∈ hosts
        ↔
      ∃ record ∈ catalog.records, PluginLists times isActive record
        ∧ ∃ synced, record.syncedHost idText = .ok synced ∧ synced.toHost = host := by
  simp only [discover, Catalog.hostsExcludingLocalEndpoints, Except.bind_eq_ok_iff,
    Except.pure_eq_ok_iff, Prod.mk.injEq] at hdiscover
  rcases hdiscover with ⟨_, ⟨listed, hlisted, rfl⟩, _, _, _, rfl⟩
  rw [(Discovery.validateHosts_eq_ok hread).1, List.mem_map]
  unfold PluginLists
  constructor
  . rintro ⟨synced, hmem, htoHost⟩
    rcases (Catalog.mem_of_hostsWithFilter hlisted).mp hmem with ⟨record, hrecord, hlists, hsynced⟩
    exact ⟨record, hrecord, hlists, synced, hsynced, htoHost⟩
  . rintro ⟨record, hrecord, hlists, synced, hsynced, htoHost⟩
    exact ⟨synced, (Catalog.mem_of_hostsWithFilter hlisted).mpr ⟨record, hrecord, hlists, hsynced⟩,
      htoHost⟩

theorem equivalent_label_reaches_iff
    (hprints : ∀ ticket, idText.Prints (iroh.ticketIdentity ticket))
    (hvalid : Catalog.validate iroh catalog account = .ok ())
    (hdiscover : discover iroh catalog idText times isActive = .ok (snapshot, listing))
    {hosts : List DiscoveryHost}
    (hread : Discovery.validateHosts (listing.hosts.map SyncedHost.toHost) = .ok hosts)
    {targets : List String} {host : DiscoveryHost} (hmem : host ∈ hosts)
    (hequivalent : Reconciler.equivalentLabel hosts targets host = true)
    : Reaches iroh snapshot host.endpointId (attachedTarget (toAsciiLowercase host.host))
        ↔
      (∃ record synced, Exports iroh catalog idText times record synced
        ∧ synced.target = host.endpointId
        ∧ toAsciiLowercase synced.host = toAsciiLowercase host.host)
      ∧ (∀ record synced, Exports iroh catalog idText times record synced →
        ¬PluginLists times isActive record →
        toAsciiLowercase synced.host = toAsciiLowercase host.host → synced.target = host.endpointId)
      ∧ iroh.endpointIdFromStr (toAsciiLowercase host.host) = none := by
  have hhosts {host : DiscoveryHost} : host ∈ hosts ↔ _ := mem_of_validateHosts hdiscover hread
  have hpatterns := isPattern_of_snapshot hprints hvalid hdiscover
  simp only [Reconciler.equivalentLabel, Bool.and_eq_true, beq_iff_eq, Bool.not_eq_true'] at hequivalent
  rcases hequivalent with ⟨⟨hcount, hshape⟩, _⟩
  -- A stable alias is never the alias of the label.
  have hstable {target : String} {advertisement : Advertisement}
      (h : snapshot[target]? = some advertisement) : toAsciiLowercase host.host ≠ target := by
    rintro htarget
    rcases wellFormed_of_snapshot hprints hvalid hdiscover h with ⟨synced, hsynced, rfl, _⟩
    have hendpoint : isEndpoint synced.target = true := hsynced.toHost.1
    rw [← htarget, hshape] at hendpoint
    simp at hendpoint
  -- The plugin has seen no other host with the label.
  have hunique {record : CatalogRecord} {synced : SyncedHost} (hrecord : record ∈ catalog.records)
      (hsynced : record.syncedHost idText = .ok synced) (hlists : PluginLists times isActive record)
      (hlabel : toAsciiLowercase synced.host = toAsciiLowercase host.host)
      : synced.target = host.endpointId := by
    have hother : synced.toHost ∈ hosts := hhosts.mpr ⟨record, hrecord, hlists, synced, hsynced, rfl⟩
    have hone := Keyed.countP_eq_one_iff (Discovery.validateHosts_eq_ok hread).2
      (p := fun other => toAsciiLowercase other.host == toAsciiLowercase host.host) hmem (by simp)
    exact hone.mp hcount synced.toHost hother (beq_iff_eq.mpr hlabel)
  have hlabel {target : String} {label : String} : (∃ advertisement, snapshot[target]? = some advertisement
      ∧ advertisement.label = label) ↔ _ := label_of_discover hdiscover
  constructor
  . rintro ⟨halias, _⟩
    rcases (hasAlias_iff hpatterns).mp halias with ⟨advertisement, hadvertisement, htarget | hallowed⟩
    . exact absurd htarget (hstable hadvertisement)
    . rcases hallowed with ⟨hsame, hsingle, hparse⟩
      rcases hlabel.mp ⟨advertisement, hadvertisement, rfl⟩ with
        ⟨record, synced, hexports, htarget, hsynced⟩
      refine ⟨⟨record, synced, hexports, htarget, by rw [hsynced, hsame]⟩, ?_, hparse⟩
      intro record' synced' hexports' _ hsame'
      rcases hlabel.mpr ⟨record', synced', hexports', rfl, rfl⟩ with
        ⟨advertisement', hadvertisement', hsynced'⟩
      apply (labelCount_eq_one_iff hadvertisement hsame).mp hsingle _ advertisement' hadvertisement'
      rw [hsynced', hsame']
  . rintro ⟨⟨record, synced, hexports, htarget, hsame⟩, hleft, hparse⟩
    rcases hlabel.mpr ⟨record, synced, hexports, htarget, rfl⟩ with
      ⟨advertisement, hadvertisement, hsynced⟩
    rw [← hsynced] at hsame
    have honly : ∀ (other : String) (advertisement' : Advertisement),
        snapshot[other]? = some advertisement' →
          toAsciiLowercase advertisement'.label = toAsciiLowercase host.host →
            other = host.endpointId := by
      intro other advertisement' hadvertisement' hsame'
      rcases hlabel.mp ⟨advertisement', hadvertisement', rfl⟩ with
        ⟨record', synced', hexports', rfl, hsynced'⟩
      rw [← hsynced'] at hsame'
      by_cases hlists : PluginLists times isActive record'
      . exact hunique hexports'.mem hexports'.synced hlists hsame'
      . exact hleft record' synced' hexports' hlists hsame'
    refine ⟨(hasAlias_iff hpatterns).mpr ⟨advertisement, hadvertisement, Or.inr ⟨hsame, ?_, hparse⟩⟩, ?_⟩
    . exact (labelCount_eq_one_iff hadvertisement hsame).mpr honly
    . intro other halias
      rcases (hasAlias_iff hpatterns).mp halias with
        ⟨advertisement', hadvertisement', hother | ⟨hsame', _⟩⟩
      . exact absurd hother (hstable hadvertisement')
      . exact honly other advertisement' hadvertisement' hsame'

end

/-! A second machine of the account, with the ticket and the id of another key. -/
namespace Fixture

def otherTicket : String :=
  "endpointadlvvgabqkyqvn6vjp7nhslea45a5yls6pnkmizfv4bbu2hxa5iruaqacbuhi5dqhixs6zdfojyc43lffyxqcad7aaaadaai"

def otherIdentity : Vector UInt8 32 :=
  #v[215, 90, 152, 1, 130, 177, 10, 183, 213, 75, 254, 211, 201, 100, 7, 58, 14, 225, 114, 243, 218,
    166, 35, 37, 175, 2, 26, 104, 247, 7, 81, 26]

def officeEndpointId : String :=
  "ae58ff8833241ac82d6ff7611046ed67b5072d142c588d0063e942d9a75502b6"

def otherEndpointId : String :=
  "d75a980182b10ab7d54bfed3c964073a0ee172f3daa62325af021a68f707511a"

def irohOfTwo : Iroh Bool where
  ticketFromStr text :=
    if text = ticket then some false else if text = otherTicket then some true else none
  ticketToString other := if other then otherTicket else ticket
  ticketIdentity other := if other then otherIdentity else identity
  endpointIdFromStr text :=
    if text = officeEndpointId then some identity
    else if text = otherEndpointId then some otherIdentity
    else none

def idTextOfTwo (key : Vector UInt8 32) : Option String :=
  if key = identity then some officeEndpointId
  else if key = otherIdentity then some otherEndpointId
  else none

def otherRecord (id : UInt8) (label : String) : CatalogRecord :=
  { listedRecord id label with
    endpointTicket := otherTicket
    endpointIdentity := otherIdentity }

def discoverTimes : DiscoverTimes where
  listedAt := time 10
  completedAt := time 11
  recheckedAt _ := time 12

def seenHost (label : String) : DiscoveryHost where
  host := label
  endpointId := officeEndpointId
  sshTarget := attachedTarget officeEndpointId

def otherListed (label : String) : SyncedHost :=
  { listed label with target := otherEndpointId }

def sharedCatalog : Catalog :=
  listedCatalog [listedRecord 1 "Office", otherRecord 2 "office"]

def servedHere (record : CatalogRecord) : Option Bool :=
  some (record.endpointIdentity == otherIdentity)

theorem prints_idTextOfTwo (other : Bool)
    : EndpointIdText.Prints idTextOfTwo (irohOfTwo.ticketIdentity other) := by
  cases other with
  | false => exact ⟨officeEndpointId, by decide +kernel, by decide +kernel⟩
  | true => exact ⟨otherEndpointId, by decide +kernel, by decide +kernel⟩

end Fixture

/--
The plugin takes `attached-office` for the host in the office. The exporter does not export it, because
a machine that is served here has the label too.
-/
theorem equivalent_label_without_alias
    : Catalog.validate Fixture.irohOfTwo Fixture.sharedCatalog Fixture.listedAccount = .ok ()
        ∧ ∃ snapshot, Exporter.discover Fixture.irohOfTwo Fixture.sharedCatalog Fixture.idTextOfTwo
              Fixture.discoverTimes Fixture.servedHere
                = .ok (snapshot, ⟨[Fixture.listed "Office"], false⟩)
            ∧ Discovery.validateHosts ([Fixture.listed "Office"].map SyncedHost.toHost)
                = .ok [Fixture.seenHost "Office"]
            ∧ Reconciler.equivalentLabel [Fixture.seenHost "Office"] ["attached-office"]
                (Fixture.seenHost "Office") = true
            ∧ ¬Exporter.HasAlias Fixture.irohOfTwo snapshot (Fixture.seenHost "Office").endpointId
                "attached-office" := by
  have hvalid : Catalog.validate Fixture.irohOfTwo Fixture.sharedCatalog Fixture.listedAccount
      = .ok () := by
    decide +kernel
  have hlisting : Fixture.sharedCatalog.hostsExcludingLocalEndpoints Fixture.idTextOfTwo
      Fixture.discoverTimes.listedAt Fixture.servedHere = .ok ⟨[Fixture.listed "Office"], false⟩ := by
    decide +kernel
  have hhosts : Fixture.sharedCatalog.allSshHosts Fixture.idTextOfTwo
      Fixture.discoverTimes.completedAt = .ok [Fixture.listed "Office", Fixture.otherListed "office"] := by
    decide +kernel
  let snapshot := Exporter.advertise Fixture.irohOfTwo Fixture.sharedCatalog
    Fixture.discoverTimes.recheckedAt [Fixture.listed "Office", Fixture.otherListed "office"] ∅
  have hdiscover : Exporter.discover Fixture.irohOfTwo Fixture.sharedCatalog Fixture.idTextOfTwo
      Fixture.discoverTimes Fixture.servedHere
        = .ok (snapshot, ⟨[Fixture.listed "Office"], false⟩) := by
    unfold Exporter.discover
    rw [hlisting, hhosts]
    rfl
  have hcount : Exporter.labelCount (Keyed.intoValues snapshot) "office" = 2 := by
    decide +kernel
  refine ⟨hvalid, snapshot, hdiscover, by decide +kernel, by decide +kernel, ?_⟩
  intro halias
  rw [show "attached-office" = attachedTarget "office" from rfl, Exporter.hasAlias_iff
    (isPattern_of_snapshot Fixture.prints_idTextOfTwo hvalid hdiscover)] at halias
  rcases halias with ⟨_, _, htarget | ⟨_, hsingle, _⟩⟩
  . exact absurd htarget (by decide +kernel)
  . rw [hcount] at hsingle
    simp at hsingle

theorem equivalent_label_reaches_office
    : ∃ snapshot, Exporter.discover Fixture.irohOfTwo (Fixture.listedCatalog [Fixture.listedRecord 1 "Office"])
          Fixture.idTextOfTwo Fixture.discoverTimes Fixture.servedHere
            = .ok (snapshot, ⟨[Fixture.listed "Office"], false⟩)
        ∧ Exporter.Reaches Fixture.irohOfTwo snapshot Fixture.officeEndpointId "attached-office" := by
  let catalog := Fixture.listedCatalog [Fixture.listedRecord 1 "Office"]
  have hlisting : catalog.hostsExcludingLocalEndpoints Fixture.idTextOfTwo
      Fixture.discoverTimes.listedAt Fixture.servedHere = .ok ⟨[Fixture.listed "Office"], false⟩ := by
    decide +kernel
  have hhosts : catalog.allSshHosts Fixture.idTextOfTwo Fixture.discoverTimes.completedAt
      = .ok [Fixture.listed "Office"] := by
    decide +kernel
  have hdiscover : Exporter.discover Fixture.irohOfTwo catalog Fixture.idTextOfTwo
      Fixture.discoverTimes Fixture.servedHere
        = .ok (Exporter.advertise Fixture.irohOfTwo catalog Fixture.discoverTimes.recheckedAt
          [Fixture.listed "Office"] ∅, ⟨[Fixture.listed "Office"], false⟩) := by
    unfold Exporter.discover
    rw [hlisting, hhosts]
    rfl
  have hsynced : (Fixture.listedRecord 1 "Office").syncedHost Fixture.idTextOfTwo
      = .ok (Fixture.listed "Office") := by
    decide +kernel
  have hlisted : PluginLists Fixture.discoverTimes Fixture.servedHere
      (Fixture.listedRecord 1 "Office") := by
    unfold PluginLists
    decide +kernel
  have hresolves : Exporter.Resolves Fixture.irohOfTwo catalog Fixture.discoverTimes.recheckedAt
      (Fixture.listed "Office") :=
    ⟨(Fixture.listedRecord 1 "Office").sshAttachment, by decide +kernel, rfl⟩
  refine ⟨_, hdiscover, ?_⟩
  have hvalid : Catalog.validate Fixture.irohOfTwo catalog Fixture.listedAccount = .ok () := by
    decide +kernel
  have hread : Discovery.validateHosts ([Fixture.listed "Office"].map SyncedHost.toHost)
      = .ok [Fixture.seenHost "Office"] := by
    decide +kernel
  have hequivalent : Reconciler.equivalentLabel [Fixture.seenHost "Office"] ["attached-office"]
      (Fixture.seenHost "Office") = true := by
    decide +kernel
  apply (equivalent_label_reaches_iff Fixture.prints_idTextOfTwo hvalid hdiscover hread
    (List.mem_singleton_self _) hequivalent).mpr
  refine ⟨⟨Fixture.listedRecord 1 "Office", Fixture.listed "Office", ?_, rfl, rfl⟩, ?_, by decide +kernel⟩
  . refine ⟨List.mem_singleton_self _, by decide +kernel, hsynced, hresolves, ?_⟩
    intro other hother _ host' hsynced' _ _
    rw [List.mem_singleton.mp hother, hsynced, Except.ok.injEq] at hsynced'
    rw [← hsynced']
    exact SyncedHost.le_refl _
  . intro record synced hexports hleft
    rw [List.mem_singleton.mp hexports.mem] at hleft
    exact absurd hlisted hleft

end Attached
