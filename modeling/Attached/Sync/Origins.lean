import Attached.Protocol.AccountLemmas
import Attached.Sync.Catalog

/-!
This module contains the correctness of service origins: an accepted text is the canonical spelling of
a scheme, a host and a port, so two origins are the same bytes if and only if they are the same service.
-/

namespace Attached

def Host.text (host : Host) : List UInt8 :=
  match host with
  | .domain name => name
  | .ipv4 ip => ip.toText
  | .ipv6 ip => 0x5b :: (ip.toText ++ [0x5d])

namespace Url

def portOrKnownDefault (url : Url) : Option UInt16 :=
  match url.port with
  | some port => some port
  | none =>
    if url.scheme = Bytes.ofString "https" then
      some 443
    else if url.scheme = Bytes.ofString "http" then
      some 80
    else
      none

def SameService (a b : Url) : Prop :=
  a.scheme = b.scheme ∧ a.host = b.host ∧ a.portOrKnownDefault = b.portOrKnownDefault

end Url

structure Service where
  https : Bool
  host : Host
  port : Option UInt16

namespace Service

def scheme (service : Service) : List UInt8 :=
  Bytes.ofString (if service.https then "https" else "http")

def authority (service : Service) : List UInt8 :=
  service.host.text
    ++ (service.port.map fun port => 0x3a :: Bytes.numeral 10 port.toNat).getD []

def text (service : Service) : List UInt8 :=
  service.scheme ++ Bytes.ofString "://" ++ service.authority

def url (service : Service) : Url where
  scheme := service.scheme
  username := []
  password := none
  host := some service.host
  port := service.port
  path := [0x2f]
  query := none
  fragment := none

end Service

structure IsDnsName (name : List UInt8) : Prop where
  length_le : name.length ≤ 253
  label_ne_nil : ∀ label ∈ name.splitOn 0x2e, label ≠ []
  label_length_le : ∀ label ∈ name.splitOn 0x2e, label.length ≤ 63
  not_punycode : ∀ label ∈ name.splitOn 0x2e, ¬Bytes.ofString "xn--" <+: label
  not_hyphen : ∀ label ∈ name.splitOn 0x2e, label.head? ≠ some 0x2d ∧ label.getLast? ≠ some 0x2d
  alphabet : ∀ label ∈ name.splitOn 0x2e, ∀ b ∈ label,
    Bytes.isAsciiLowercase b = true ∨ Bytes.isAsciiDigit b = true ∨ b = 0x2d
  not_numeric : ∃ b ∈ name, Bytes.isAsciiDigit b = false ∧ b ≠ 0x2e

def Host.Public (host : Host) : Prop :=
  match host with
  | .domain name => IsDnsName name ∧ name ≠ Bytes.ofString "localhost"
  | .ipv4 ip => ip.isUnspecified = false
  | .ipv6 ip => ip.isUnspecified = false ∧ ip.toIpv4Mapped = none

def Host.Loopback (host : Host) : Prop :=
  host = .ipv4 IpAddr.V4.localhost ∨ host = .ipv6 IpAddr.V6.localhost

theorem Host.Loopback.text_eq {host : Host} (h : host.Loopback)
    : host.text = Bytes.ofString "127.0.0.1" ∨ host.text = Bytes.ofString "[::1]" := by
  rcases h with rfl | rfl
  . left
    decide +kernel
  . right
    decide +kernel

def Service.Allowed (service : Service) : Prop :=
  if service.https then
    service.host.Public ∧ ∀ port, service.port = some port → port ≠ 0 ∧ port ≠ 443
  else
    service.host.Loopback ∧ ∃ port, service.port = some port ∧ port ≠ 0 ∧ port ≠ 80

namespace ServiceOrigin

variable {crates : AccountCrates}

theorem splitScheme_eq_ok {value authority : List UInt8} {https : Bool}
    (h : splitScheme value = .ok (https, authority))
    : value = Bytes.ofString (if https then "https" else "http") ++ Bytes.ofString "://"
        ++ authority := by
  rw [← Bytes.ofString_append]
  unfold splitScheme at h
  split at h
  . next rest hstrip =>
    cases h
    exact Bytes.strip_eq_some_iff.mp hstrip
  . split at h
    . next rest hstrip =>
      cases h
      exact Bytes.strip_eq_some_iff.mp hstrip
    . cases h

theorem parsePort_eq_ok {value : List UInt8} {port : UInt16} (h : parsePort value = .ok port)
    : value = Bytes.numeral 10 port.toNat ∧ port ≠ 0 := by
  unfold parsePort at h
  simp only [Except.bind_eq_ok_iff, Except.ensure_eq_ok_iff, Except.pure_eq_ok_iff,
    Bool.not_eq_true', Bool.or_eq_false_iff, Bool.not_eq_false', Bool.and_eq_false_iff,
    decide_eq_false_iff_not, decide_eq_true_eq, beq_eq_false_iff_ne] at h
  rcases h with ⟨_, ⟨⟨hne, hdigits⟩, hzero⟩, _, hlt, _, hpos, rfl⟩
  have hnumber := Bytes.numeral_foldl (List.isEmpty_eq_false_iff.mp hne) hdigits
    fun hzeros => hzero.elim (fun h => h hzeros.1) fun h => h hzeros.2
  generalize value.foldl (fun port digit => port * 10 + (digit.toNat - 48)) 0 = number
    at hnumber hlt hpos
  have htoNat : (UInt16.ofNat number).toNat = number := by
    rw [UInt16.toNat_ofNat']
    omega
  constructor
  . rw [htoNat, hnumber]
  . intro heq
    rw [heq] at htoNat
    exact hpos htoNat.symm

def StrictHost.host (strictHost : StrictHost) (text : List UInt8) : Host :=
  match strictHost with
  | .dns => .domain text
  | .v4 ip => .ipv4 ip
  | .v6 ip => .ipv6 ip

theorem sameHost_iff {strictHost : StrictHost} {text : List UInt8} {parsed : Option Host}
    : sameHost strictHost text parsed = true ↔ parsed = some (strictHost.host text) := by
  unfold sameHost StrictHost.host
  cases strictHost with
  | dns => rcases parsed with _ | ⟨name | ip | ip⟩ <;> simp
  | v4 expected =>
    rcases parsed with _ | ⟨name | ip | ip⟩
    . simp
    . simp
    . simp only [beq_iff_eq, Option.some.injEq, Host.ipv4.injEq]
      exact eq_comm
    . simp
  | v6 expected =>
    rcases parsed with _ | ⟨name | ip | ip⟩
    . simp
    . simp
    . simp
    . simp only [beq_iff_eq, Option.some.injEq, Host.ipv6.injEq]
      exact eq_comm

theorem isDnsName_of_validateDns {name : List UInt8} (h : validateDns name = .ok ())
    (hnumeric : ¬(name.all fun byte => Bytes.isAsciiDigit byte || byte == 0x2e) = true)
    : IsDnsName name := by
  unfold validateDns at h
  simp only [Except.bind_eq_ok_iff, Except.ensure_eq_ok_iff, Bool.not_eq_true', List.any_eq_false,
    Bool.or_eq_true, Bool.or_eq_false_iff, not_or, Bool.not_eq_true, decide_eq_false_iff_not,
    exists_const, decide_eq_true_eq, beq_iff_eq, Bool.not_eq_false] at h
  rcases h with ⟨⟨⟨⟨_, hlength⟩, _⟩, _⟩, hlabels⟩
  simp only [List.all_eq_true, not_forall, Bool.or_eq_true, beq_iff_eq, not_or, Bool.not_eq_true,
    exists_prop] at hnumeric
  exact {
    length_le := by omega
    label_ne_nil := fun label hlabel => List.isEmpty_eq_false_iff.mp (hlabels label hlabel).1.1.1.1.1
    label_length_le := fun label hlabel => Nat.not_lt.mp (hlabels label hlabel).1.1.1.1.2
    not_punycode := fun label hlabel hbegins => by
      have := (hlabels label hlabel).1.1.1.2
      rw [List.isPrefixOf_iff_prefix.mpr hbegins] at this
      cases this
    not_hyphen := fun label hlabel => ⟨(hlabels label hlabel).1.1.2, (hlabels label hlabel).1.2⟩
    alphabet := fun label hlabel b hb => by
      have := List.all_eq_true.mp (hlabels label hlabel).2 b hb
      simpa only [Bool.or_eq_true, beq_iff_eq, or_assoc] using this
    not_numeric := hnumeric
  }

theorem eq_brackets {text : List UInt8} (hfirst : text.head? = some 0x5b)
    (hlast : text.getLast? = some 0x5d) : text = 0x5b :: ((text.drop 1).dropLast ++ [0x5d]) := by
  cases text with
  | nil => cases hfirst
  | cons first rest =>
    rw [List.head?_cons, Option.some.injEq] at hfirst
    subst hfirst
    rcases List.eq_nil_or_concat rest with rfl | ⟨inner, last, rfl⟩
    . cases hlast
    . rw [List.concat_eq_append, ← List.cons_append, List.getLast?_append_of_ne_nil _ (by simp),
        List.getLast?_singleton, Option.some.injEq] at hlast
      subst hlast
      simp

theorem parseHost_eq_ok {text : List UInt8} {strictHost : StrictHost}
    (h : parseHost text = .ok strictHost)
    : (strictHost.host text).text = text ∧ (strictHost.host text).Public := by
  unfold parseHost at h
  split at h
  . next hfirst =>
    simp only [Except.bind_eq_ok_iff, Except.ensure_eq_ok_iff, Except.okOr_eq_ok_iff,
      Except.pure_eq_ok_iff, Bool.not_eq_true', Bool.or_eq_false_iff, bne_eq_false_iff_eq,
      beq_iff_eq, exists_const] at h
    rcases h with ⟨hlast, ip, _, ⟨⟨htext, hmapped⟩, hunspecified⟩, rfl⟩
    constructor
    . dsimp only [StrictHost.host, Host.text]
      rw [htext, ← eq_brackets hfirst hlast]
    . exact ⟨hunspecified, by simpa using hmapped⟩
  . split at h
    . simp only [parseCanonicalIpv4, Except.bind_eq_ok_iff, Except.ensure_eq_ok_iff,
        Except.okOr_eq_ok_iff, Except.pure_eq_ok_iff, Bool.not_eq_true', bne_eq_false_iff_eq,
        exists_const] at h
      rcases h with ⟨_, ⟨_, _, _, htext, rfl⟩, hunspecified, rfl⟩
      exact ⟨htext, hunspecified⟩
    . next hnumeric =>
      simp only [Except.bind_eq_ok_iff, Except.ensure_eq_ok_iff, Except.pure_eq_ok_iff,
        Bool.not_eq_true', beq_eq_false_iff_ne, exists_const] at h
      rcases h with ⟨_, hdns, hlocalhost, rfl⟩
      exact ⟨rfl, isDnsName_of_validateDns hdns hnumeric, hlocalhost⟩

theorem isForbidden_eq_false {b : UInt8} (h : isForbidden b = false)
    : 0x20 < b ∧ b ≠ 0x7f ∧ b ∉ Bytes.ofString "%\\/?#@" := by
  revert b
  apply Bytes.forall_byte
  decide +kernel

theorem mapM_parsePort_eq_ok {portText : Option (List UInt8)} {port : Option UInt16}
    (h : portText.mapM parsePort = .ok port)
    : (portText.map fun port => 0x3a :: port).getD []
          = (port.map fun port => 0x3a :: Bytes.numeral 10 port.toNat).getD []
        ∧ port ≠ some 0 := by
  cases portText with
  | none =>
    cases h
    exact ⟨rfl, nofun⟩
  | some value =>
    rcases Except.mapM_some_eq_ok_iff.mp h with ⟨number, hnumber, rfl⟩
    rcases parsePort_eq_ok hnumber with ⟨hvalue, hpos⟩
    constructor
    . simp only [Option.map_some, Option.getD_some, ← hvalue]
    . rw [Ne, Option.some.injEq]
      exact hpos

theorem loopback_of_strictHost {strictHost : StrictHost} {host : List UInt8}
    (h : strictHost = .v4 IpAddr.V4.localhost ∨ strictHost = .v6 IpAddr.V6.localhost)
    : (strictHost.host host).Loopback := by
  rcases h with rfl | rfl
  . exact .inl rfl
  . exact .inr rfl

theorem check_eq_ok {value : List UInt8} (h : check crates value = .ok ())
    : ∃ service : Service,
        value = service.text
          ∧ service.Allowed
          ∧ crates.urlParse value = some service.url
          ∧ Bytes.isAscii value = true
          ∧ service.authority.any isForbidden = false := by
  unfold check at h
  simp only [Except.bind_eq_ok_iff, Except.ensure_eq_ok_iff, Except.okOr_eq_ok_iff,
    exists_const] at h
  rcases h with ⟨hascii, ⟨https, authority⟩, hscheme, hforbidden, ⟨host, portText⟩, hsplit, port, hport,
    hdefault, hexplicit, strictHost, hhost, hloopback, parsed, hparsed, hplain, hsame⟩
  dsimp only at hforbidden hsplit hport hdefault hexplicit hhost hloopback hplain hsame
  rcases parseHost_eq_ok hhost with ⟨htext, hpublic⟩
  rcases mapM_parsePort_eq_ok hport with ⟨hportText, hzero⟩
  let service : Service := ⟨https, strictHost.host host, port⟩
  have hauthority : authority = service.authority := by
    rw [splitAuthority_eq_ok hsplit, hportText, Service.authority, htext]
  refine ⟨service, ?_, ?_, ?_, ?_, ?_⟩
  . rw [splitScheme_eq_ok hscheme, hauthority, Service.text, Service.scheme]
  . cases https with
    | true =>
      refine ⟨hpublic, ?_⟩
      rintro number rfl
      constructor
      . rintro rfl
        exact hzero rfl
      . rintro rfl
        simp at hdefault
    | false =>
      constructor
      . apply loopback_of_strictHost
        by_contra hneither
        rw [not_or] at hneither
        simp [hneither.1, hneither.2] at hloopback
      . cases port with
        | none => simp at hexplicit
        | some number =>
          refine ⟨number, rfl, ?_, ?_⟩
          . rintro rfl
            exact hzero rfl
          . rintro rfl
            simp at hdefault
  . simp only [Bool.not_eq_true', Bool.or_eq_false_iff, bne_eq_false_iff_eq, Bool.not_eq_false',
      List.isEmpty_iff, sameHost_iff] at hplain hsame
    rw [hparsed, Option.some.injEq]
    rcases hplain with ⟨⟨⟨⟨⟨hscheme', huser⟩, hpassword⟩, hpath⟩, hquery⟩, hfragment⟩
    cases parsed
    simp_all [service, Service.url, Service.scheme]
  . simp only [Bool.not_eq_true', Bool.or_eq_false_iff, Bool.not_eq_false'] at hascii
    exact hascii.2
  . rw [← hauthority]
    simpa using hforbidden

end ServiceOrigin

namespace Service

theorem https_inj {a b : Service} (h : a.scheme = b.scheme) : a.https = b.https := by
  have hne : Bytes.ofString "https" ≠ Bytes.ofString "http" := by decide +kernel
  unfold scheme at h
  cases ha : a.https <;> cases hb : b.https
  . rfl
  . rw [ha, hb] at h
    exact absurd h.symm hne
  . rw [ha, hb] at h
    exact absurd h hne
  . rfl

def defaultPort (service : Service) : UInt16 :=
  if service.https then 443 else 80

theorem portOrKnownDefault_url (service : Service)
    : service.url.portOrKnownDefault = some (service.port.getD service.defaultPort) := by
  have hne : Bytes.ofString "http" ≠ Bytes.ofString "https" := by decide +kernel
  unfold Url.portOrKnownDefault url defaultPort scheme
  dsimp only
  cases service.port with
  | some port => rfl
  | none =>
    cases service.https with
    | true => simp
    | false => simp [hne]

theorem Allowed.port_ne_defaultPort {service : Service} (h : service.Allowed)
    : service.port ≠ some service.defaultPort := by
  unfold Allowed at h
  unfold defaultPort
  split at h
  . next hhttps =>
    intro hport
    rw [if_pos hhttps] at hport
    exact (h.2 443 hport).2 rfl
  . next hhttp =>
    intro hport
    rw [if_neg hhttp] at hport
    rcases h.2 with ⟨port, hport', _, hne⟩
    rw [hport, Option.some.injEq] at hport'
    exact hne hport'.symm

theorem Allowed.port_inj {a b : Service} (ha : a.Allowed) (hb : b.Allowed)
    (hdefault : a.defaultPort = b.defaultPort)
    (h : a.port.getD a.defaultPort = b.port.getD b.defaultPort) : a.port = b.port := by
  have hane := ha.port_ne_defaultPort
  have hbne := hb.port_ne_defaultPort
  cases haport : a.port with
  | none =>
    cases hbport : b.port with
    | none => rfl
    | some port =>
      rw [haport, hbport, hdefault] at h
      exact absurd (hbport.trans (congrArg some h.symm)) hbne
  | some port =>
    cases hbport : b.port with
    | none =>
      rw [haport, hbport, ← hdefault] at h
      exact absurd (haport.trans (congrArg some h)) hane
    | some port' =>
      rw [haport, hbport] at h
      exact congrArg some h

theorem Allowed.text_eq {a b : Service} (ha : a.Allowed) (hb : b.Allowed)
    (h : a.url.SameService b.url) : a.text = b.text := by
  rcases h with ⟨hscheme, hhost, hport⟩
  have hhttps : a.https = b.https := https_inj hscheme
  have hdefault : a.defaultPort = b.defaultPort := by
    unfold defaultPort
    rw [hhttps]
  rw [portOrKnownDefault_url, portOrKnownDefault_url, Option.some.injEq] at hport
  have hsameHost : a.host = b.host := Option.some.inj hhost
  unfold text authority scheme
  rw [hhttps, hsameHost, ha.port_inj hb hdefault hport]

end Service

theorem service_origins (crates : AccountCrates)
    : (∀ (s : List UInt8) (origin : ServiceOrigin crates), ServiceOrigin.parse crates s = .ok origin →
        ∃ service : Service,
          s = service.text
            ∧ service.Allowed
            ∧ crates.urlParse s = some service.url
            ∧ Bytes.isAscii s = true
            ∧ ∀ b ∈ service.authority, 0x20 < b ∧ b ≠ 0x7f ∧ b ∉ Bytes.ofString "%\\/?#@")
      ∧ (∀ (s t : List UInt8) (a b : ServiceOrigin crates) (u v : Url),
        ServiceOrigin.parse crates s = .ok a → ServiceOrigin.parse crates t = .ok b →
        crates.urlParse s = some u → crates.urlParse t = some v → u.SameService v → s = t)
      ∧ ∀ (catalog : Catalog) (account : AccountCredentials) (a b : ServiceOrigin crates) (u v : Url),
        ServiceOrigin.parse crates (Bytes.ofString catalog.serviceOrigin) = .ok a →
        ServiceOrigin.parse crates (Bytes.ofString account.serviceOrigin) = .ok b →
        crates.urlParse (Bytes.ofString catalog.serviceOrigin) = some u →
        crates.urlParse (Bytes.ofString account.serviceOrigin) = some v →
        ((catalog.serviceOrigin == account.serviceOrigin) = true ↔ u.SameService v) := by
  have hservice : ∀ (s : List UInt8) (origin : ServiceOrigin crates) (u : Url),
      ServiceOrigin.parse crates s = .ok origin → crates.urlParse s = some u →
        ∃ service : Service, s = service.text ∧ service.Allowed ∧ u = service.url := by
    intro s origin u hparse hurl
    obtain rfl := ServiceOrigin.parse_eq_ok_iff.mp hparse
    rcases ServiceOrigin.check_eq_ok origin.valid with ⟨service, htext, hallowed, hparsed, _⟩
    rw [hurl, Option.some.injEq] at hparsed
    exact ⟨service, htext, hallowed, hparsed⟩
  have hinjective : ∀ (s t : List UInt8) (a b : ServiceOrigin crates) (u v : Url),
      ServiceOrigin.parse crates s = .ok a → ServiceOrigin.parse crates t = .ok b →
      crates.urlParse s = some u → crates.urlParse t = some v → (u.SameService v ↔ s = t) := by
    intro s t a b u v ha hb hu hv
    constructor
    . intro hsame
      rcases hservice s a u ha hu with ⟨service, rfl, hallowed, rfl⟩
      rcases hservice t b v hb hv with ⟨service', rfl, hallowed', rfl⟩
      exact hallowed.text_eq hallowed' hsame
    . rintro rfl
      rw [hu, Option.some.injEq] at hv
      subst hv
      exact ⟨rfl, rfl, rfl⟩
  refine ⟨?_, ?_, ?_⟩
  . intro s origin hparse
    obtain rfl := ServiceOrigin.parse_eq_ok_iff.mp hparse
    rcases ServiceOrigin.check_eq_ok origin.valid with
      ⟨service, htext, hallowed, hparsed, hascii, hforbidden⟩
    refine ⟨service, htext, hallowed, hparsed, hascii, ?_⟩
    intro b hb
    apply ServiceOrigin.isForbidden_eq_false
    simpa using List.any_eq_false.mp hforbidden b hb
  . intro s t a b u v ha hb hu hv hsame
    exact (hinjective s t a b u v ha hb hu hv).mp hsame
  . intro catalog account a b u v ha hb hu hv
    rw [beq_iff_eq, ← Bytes.ofString_inj]
    exact (hinjective _ _ a b u v ha hb hu hv).symm

theorem service_origins_sync_example
    : ∃ service : Service, Fixture.origin = service.text ∧ service.Allowed := by
  have hvalid : ServiceOrigin.check Fixture.accountCrates Fixture.origin = .ok () := by
    decide +kernel
  rcases (service_origins Fixture.accountCrates).1 Fixture.origin ⟨Fixture.origin, hvalid⟩
      (ServiceOrigin.parse_eq_ok_iff.mpr rfl) with
    ⟨service, htext, hallowed, _⟩
  exact ⟨service, htext, hallowed⟩

end Attached
