import Attached.Ssh.Aliases

/-!
This module contains that names never impersonate another host: whatever labels publishers choose, no
alias of a host is one of another host, and a target that is an endpoint id selects that endpoint.
-/

open Std

namespace Attached

theorem toAsciiLowercase_toAsciiLowercase (text : String)
    : toAsciiLowercase (toAsciiLowercase text) = toAsciiLowercase text := by
  have htwice : Char.toLower ∘ Char.toLower = Char.toLower := by
    funext c
    exact Char.toLower_toLower_eq_toLower c
  unfold toAsciiLowercase
  rw [String.toList_ofList, List.map_map, htwice]

theorem toAsciiLowercase_attachedTarget (name : String)
    : toAsciiLowercase (attachedTarget name) = attachedTarget (toAsciiLowercase name) := by
  rw [← String.toList_inj]
  simp [toAsciiLowercase, attachedTarget]

theorem mem_ofString_of_mem {text : String} {c : Char} (hmem : c ∈ text.toList) (hc : c.toNat < 128)
    : UInt8.ofNat c.toNat ∈ Bytes.ofString text := by
  rcases List.append_of_mem hmem with ⟨before, after, htext⟩
  have hsplit : text = String.ofList before ++ String.ofList [c] ++ String.ofList after := by
    rw [← String.ofList_toList (s := text), htext]
    simp [← String.toList_inj]
  have hchar : UInt8.ofNat c.toNat ∈ Bytes.ofString (String.ofList [c]) := by
    have hencode := Bytes.utf8EncodeChar_ofNat c.toNat hc
    rw [Char.ofNat_toNat] at hencode
    simp [Bytes.ofString, List.utf8Encode, hencode]
  rw [hsplit, Bytes.ofString_append, Bytes.ofString_append]
  exact List.mem_append_left _ (List.mem_append_right _ hchar)

theorem toAsciiLowercase_of_hex {text : String} {bytes : List UInt8}
    (h : Bytes.ofString text = Bytes.hex bytes) : toAsciiLowercase text = text := by
  have hdigit : ∀ d < 16, ∀ n < 128, 65 ≤ n → n ≤ 90 → UInt8.ofNat n ≠ Bytes.hexDigit d := by
    decide +kernel
  have hlower : ∀ c ∈ text.toList, c.toLower = c := by
    intro c hmem
    apply Char.toLower_eq_of_not_isUpper
    intro hupper
    have hrange : 65 ≤ c.toNat ∧ c.toNat ≤ 90 := by
      simpa [Char.isUpper, UInt32.le_iff_toNat_le] using hupper
    have hbyte := mem_ofString_of_mem hmem (by omega)
    rw [h] at hbyte
    rcases Bytes.exists_of_mem_hex hbyte with ⟨d, hd, heq⟩
    exact hdigit d hd c.toNat (by omega) hrange.1 hrange.2 heq
  unfold toAsciiLowercase
  rw [List.map_congr_left hlower, List.map_id', String.ofList_toList]

namespace Exporter

variable {Ticket : Type} {iroh : Iroh Ticket} {snapshot : Snapshot} {target : String}

structure WellFormed (iroh : Iroh Ticket) (idText : EndpointIdText) (snapshot : Snapshot) : Prop where
  target : ∀ (target : String) (advertisement : Advertisement), snapshot[target]? = some advertisement →
    ∃ identity, idText identity = some target
  label : ∀ (target : String) (advertisement : Advertisement), snapshot[target]? = some advertisement →
    validateHostLabel advertisement.label = true

def IsLabelAlias (iroh : Iroh Ticket) (snapshot : Snapshot) (target name : String) : Prop :=
  ∃ advertisement, snapshot[target]? = some advertisement
    ∧ name = attachedTarget (toAsciiLowercase advertisement.label)
    ∧ labelCount (Keyed.intoValues snapshot) (toAsciiLowercase advertisement.label) = 1
    ∧ iroh.endpointIdFromStr (toAsciiLowercase advertisement.label) = none

theorem isPattern_of_validateHostLabel {label : String} (h : validateHostLabel label = true)
    : IsPattern label := by
  have hall := (validateHostLabel_iff.mp h).2.2
  rw [List.all_eq_true] at hall
  apply isPattern_of_bytes
  rintro b hb rfl
  exact absurd (hall _ hb) (by decide)

theorem isPattern_of_hex {text : String} {bytes : List UInt8}
    (h : Bytes.ofString text = Bytes.hex bytes) : IsPattern text := by
  have hdigit : ∀ d < 16, Bytes.hexDigit d ≠ 0x20 := by
    decide
  apply isPattern_of_bytes
  intro b hb
  rw [h] at hb
  rcases Bytes.exists_of_mem_hex hb with ⟨d, hd, rfl⟩
  exact hdigit d hd

theorem hasAlias_iff_stable_or_label {name : String}
    (hpatterns : ∀ (target : String) (advertisement : Advertisement),
      snapshot[target]? = some advertisement → IsPattern target ∧ IsPattern advertisement.label)
    : HasAlias iroh snapshot target name
        ↔
      (target ∈ snapshot ∧ name = attachedTarget target)
        ∨ IsLabelAlias iroh snapshot target name := by
  have hmem : ∀ advertisement, snapshot[target]? = some advertisement →
      (name ∈ patterns (aliasesOf iroh snapshot target advertisement)
        ↔
      name = attachedTarget target
        ∨ (name = attachedTarget (toAsciiLowercase advertisement.label)
          ∧ labelCount (Keyed.intoValues snapshot) (toAsciiLowercase advertisement.label) = 1
          ∧ iroh.endpointIdFromStr (toAsciiLowercase advertisement.label) = none)) := by
    intro advertisement hadvertisement
    rcases hpatterns target advertisement hadvertisement with ⟨htarget, hlabel⟩
    unfold aliasesOf
    split
    . next hallowed =>
      rw [patterns_append htarget.attachedTarget hlabel.toAsciiLowercase.attachedTarget]
      simp [hallowed]
    . next hdenied =>
      rw [patterns_eq htarget.attachedTarget]
      simp [hdenied]
  unfold HasAlias
  constructor
  . rintro ⟨names, text, hnames, htext, hname⟩
    rw [getElem?_of_aliases iroh hnames, Option.map_eq_some_iff] at htext
    rcases htext with ⟨advertisement, hadvertisement, rfl⟩
    rcases (hmem advertisement hadvertisement).mp hname with hstable | hlabel
    . left
      rw [TreeMap.mem_iff_isSome_getElem?, hadvertisement]
      exact ⟨rfl, hstable⟩
    . exact .inr ⟨advertisement, hadvertisement, hlabel⟩
  . intro hname
    have hadvertisement : ∃ advertisement, snapshot[target]? = some advertisement
        ∧ name ∈ patterns (aliasesOf iroh snapshot target advertisement) := by
      rcases hname with ⟨htarget, hstable⟩ | ⟨advertisement, hadvertisement, hlabel⟩
      . rw [TreeMap.mem_iff_isSome_getElem?, Option.isSome_iff_exists] at htarget
        rcases htarget with ⟨advertisement, hadvertisement⟩
        exact ⟨advertisement, hadvertisement, (hmem advertisement hadvertisement).mpr (.inl hstable)⟩
      . exact ⟨advertisement, hadvertisement, (hmem advertisement hadvertisement).mpr (.inr hlabel)⟩
    rcases hadvertisement with ⟨advertisement, hadvertisement, hmember⟩
    refine ⟨_, aliasesOf iroh snapshot target advertisement, aliases_eq iroh, ?_, hmember⟩
    rw [getElem?_of_aliases iroh (aliases_eq iroh), hadvertisement]
    rfl

theorem IsLabelAlias.lowercase {name : String} (h : IsLabelAlias iroh snapshot target name)
    : toAsciiLowercase name = name := by
  rcases h with ⟨advertisement, _, rfl, _⟩
  rw [toAsciiLowercase_attachedTarget, toAsciiLowercase_toAsciiLowercase]

theorem IsLabelAlias.not_endpointId {label : String}
    (h : IsLabelAlias iroh snapshot target (attachedTarget label))
    : iroh.endpointIdFromStr label = none := by
  rcases h with ⟨advertisement, _, hname, _, hparse⟩
  rw [attachedTarget_inj] at hname
  rw [hname, hparse]

theorem IsLabelAlias.inj {target' name : String} (h : IsLabelAlias iroh snapshot target name)
    (h' : IsLabelAlias iroh snapshot target' name) : target = target' := by
  rcases h with ⟨advertisement, hadvertisement, rfl, hcount, _⟩
  rcases h' with ⟨advertisement', hadvertisement', hname, _⟩
  rw [attachedTarget_inj] at hname
  exact ((labelCount_eq_one_iff hadvertisement rfl).mp hcount target' advertisement' hadvertisement'
    hname.symm).symm

end Exporter

namespace Catalog

variable {Ticket : Type} {iroh : Iroh Ticket}

def matching (iroh : Iroh Ticket) (catalog : Catalog) (target : String) (now : DateTime)
    : List CatalogRecord :=
  catalog.records.filter fun record => !record.isExpiredAt now && matchesTarget iroh target record

theorem host_eq_ok_iff {catalog : Catalog} {target : String} {now : DateTime}
    {connection : HostConnection}
    : catalog.host iroh target now = .ok connection
        ↔
      ∃ record, catalog.matching iroh target now = [record] ∧ record.sshAttachment = connection := by
  unfold host
  rw [← matching]
  dsimp only
  constructor
  . intro h
    split at h
    . cases h
    . next record heq =>
      exact ⟨record, heq, Except.ok.inj h⟩
    . cases h
  . rintro ⟨record, heq, rfl⟩
    rw [heq]

end Catalog

open Exporter

theorem names_never_impersonate {Ticket : Type} {iroh : Iroh Ticket} {idText : EndpointIdText}
    (hprints : ∀ identity text, idText identity = some text →
      Bytes.ofString text = Bytes.hex identity.toList)
    (hroundtrip : ∀ identity text, idText identity = some text →
      iroh.endpointIdFromStr text = some identity)
    : (∀ snapshot : Snapshot, WellFormed iroh idText snapshot →
        (∃ names, aliases iroh snapshot = .ok names ∧ ∀ target, target ∈ names ↔ target ∈ snapshot)
          ∧ (∀ target ∈ snapshot, HasAlias iroh snapshot target (attachedTarget target))
          ∧ (∀ target name target' name' : String, target ≠ target' →
            HasAlias iroh snapshot target name → HasAlias iroh snapshot target' name' →
            toAsciiLowercase name ≠ toAsciiLowercase name')
          ∧ (∀ target name : String, HasAlias iroh snapshot target name →
            name = attachedTarget target ∨ IsLabelAlias iroh snapshot target name)
          ∧ ∀ target x : String, IsLabelAlias iroh snapshot target (attachedTarget x) →
            iroh.endpointIdFromStr x = none)
      ∧ ∀ (catalog : Catalog) (target : String) (now : DateTime) (connection : HostConnection),
        catalog.host iroh target now = .ok connection →
          ∃ record, catalog.records.filter (fun record =>
                !record.isExpiredAt now && Catalog.matchesTarget iroh target record) = [record]
            ∧ connection = record.sshAttachment
            ∧ (∀ identity, iroh.endpointIdFromStr target = some identity →
                connection.endpointIdentity = identity)
            ∧ (iroh.endpointIdFromStr target = none → record.hostLabel = target) := by
  constructor
  . intro snapshot hwellFormed
    have hpatterns : ∀ (target : String) (advertisement : Advertisement),
        snapshot[target]? = some advertisement → IsPattern target ∧ IsPattern advertisement.label := by
      intro target advertisement hadvertisement
      rcases hwellFormed.target target advertisement hadvertisement with ⟨identity, htext⟩
      exact ⟨isPattern_of_hex (hprints identity target htext),
        isPattern_of_validateHostLabel (hwellFormed.label target advertisement hadvertisement)⟩
    have hidentity : ∀ target ∈ snapshot, ∃ identity, idText identity = some target := by
      intro target htarget
      rw [TreeMap.mem_iff_isSome_getElem?, Option.isSome_iff_exists] at htarget
      rcases htarget with ⟨advertisement, hadvertisement⟩
      exact hwellFormed.target target advertisement hadvertisement
    have hstable : ∀ target ∈ snapshot, toAsciiLowercase (attachedTarget target)
        = attachedTarget target := by
      intro target htarget
      rcases hidentity target htarget with ⟨identity, htext⟩
      rw [toAsciiLowercase_attachedTarget, toAsciiLowercase_of_hex (hprints identity target htext)]
    -- The stable alias of a host of the snapshot is no label alias.
    have hapart : ∀ target target' : String, target ∈ snapshot →
        ¬IsLabelAlias iroh snapshot target' (attachedTarget target) := by
      intro target target' htarget hlabel
      rcases hidentity target htarget with ⟨identity, htext⟩
      have hparse := hlabel.not_endpointId
      rw [hroundtrip identity target htext] at hparse
      cases hparse
    refine ⟨⟨_, aliases_eq iroh, fun target => mem_of_aliases iroh (aliases_eq iroh)⟩, ?_, ?_, ?_, ?_⟩
    . intro target htarget
      exact (hasAlias_iff_stable_or_label hpatterns).mpr (.inl ⟨htarget, rfl⟩)
    . intro target name target' name' hne hname hname' hsame
      rw [hasAlias_iff_stable_or_label hpatterns] at hname hname'
      rcases hname with ⟨htarget, rfl⟩ | hlabel
      . rw [hstable target htarget] at hsame
        rcases hname' with ⟨htarget', rfl⟩ | hlabel'
        . rw [hstable target' htarget', attachedTarget_inj] at hsame
          exact hne hsame
        . rw [hlabel'.lowercase] at hsame
          rw [← hsame] at hlabel'
          exact hapart target target' htarget hlabel'
      . rw [hlabel.lowercase] at hsame
        rcases hname' with ⟨htarget', rfl⟩ | hlabel'
        . rw [hstable target' htarget'] at hsame
          rw [hsame] at hlabel
          exact hapart target' target htarget' hlabel
        . rw [hlabel'.lowercase] at hsame
          rw [← hsame] at hlabel'
          exact hne (hlabel.inj hlabel')
    . intro target name hname
      rcases (hasAlias_iff_stable_or_label hpatterns).mp hname with ⟨_, hstable⟩ | hlabel
      . exact .inl hstable
      . exact .inr hlabel
    . intro target x hlabel
      exact hlabel.not_endpointId
  . intro catalog target now connection hhost
    rcases Catalog.host_eq_ok_iff.mp hhost with ⟨record, hmatching, rfl⟩
    have hmatches : Catalog.matchesTarget iroh target record = true := by
      have hmem : record ∈ catalog.matching iroh target now := by
        rw [hmatching]
        exact List.mem_singleton_self record
      have hfilter := (List.mem_filter.mp hmem).2
      rw [Bool.and_eq_true] at hfilter
      exact hfilter.2
    refine ⟨record, hmatching, rfl, ?_, ?_⟩
    . intro identity hidentity
      change record.endpointIdentity = identity
      simpa [Catalog.matchesTarget, hidentity] using hmatches
    . intro hnone
      simpa [Catalog.matchesTarget, hnone] using hmatches

namespace Fixture

def impersonatingSnapshot : Snapshot :=
  TreeMap.ofList [(officeEndpointId, { label := "Office", connection := hostConnection }),
    (otherEndpointId, { label := officeEndpointId, connection := hostConnection })] compare

end Fixture

theorem names_never_impersonate_label
    : ¬ HasAlias Fixture.irohOfTwo Fixture.impersonatingSnapshot Fixture.otherEndpointId
        (attachedTarget Fixture.officeEndpointId) := by
  have hprints : ∀ identity text, Fixture.idTextOfTwo identity = some text →
      Bytes.ofString text = Bytes.hex identity.toList := by
    intro identity text htext
    unfold Fixture.idTextOfTwo at htext
    split at htext
    . next hidentity =>
      cases htext
      rw [hidentity]
      decide +kernel
    . split at htext
      . next hidentity =>
        cases htext
        rw [hidentity]
        decide +kernel
      . cases htext
  have hroundtrip : ∀ identity text, Fixture.idTextOfTwo identity = some text →
      Fixture.irohOfTwo.endpointIdFromStr text = some identity := by
    intro identity text htext
    unfold Fixture.idTextOfTwo at htext
    split at htext
    . next hidentity =>
      cases htext
      rw [hidentity]
      decide +kernel
    . split at htext
      . next hidentity =>
        cases htext
        rw [hidentity]
        decide +kernel
      . cases htext
  have hwellFormed : WellFormed Fixture.irohOfTwo Fixture.idTextOfTwo Fixture.impersonatingSnapshot := by
    have hentry : ∀ (target : String) (advertisement : Advertisement),
        Fixture.impersonatingSnapshot[target]? = some advertisement →
          (∃ identity, Fixture.idTextOfTwo identity = some target)
            ∧ validateHostLabel advertisement.label = true := by
      intro target advertisement hadvertisement
      have hmem := TreeMap.mem_toList_iff_getElem?_eq_some.mpr hadvertisement
      have hlist : Fixture.impersonatingSnapshot.toList
          = [(Fixture.officeEndpointId, { label := "Office", connection := Fixture.hostConnection }),
            (Fixture.otherEndpointId,
              { label := Fixture.officeEndpointId, connection := Fixture.hostConnection })] := by
        decide +kernel
      rw [hlist] at hmem
      simp only [List.mem_cons, Prod.mk.injEq, List.not_mem_nil, or_false] at hmem
      rcases hmem with ⟨rfl, rfl⟩ | ⟨rfl, rfl⟩
      . exact ⟨⟨Fixture.identity, by decide +kernel⟩, by decide +kernel⟩
      . exact ⟨⟨Fixture.otherIdentity, by decide +kernel⟩, by decide +kernel⟩
    exact ⟨fun target advertisement h => (hentry target advertisement h).1,
      fun target advertisement h => (hentry target advertisement h).2⟩
  rcases (names_never_impersonate hprints hroundtrip).1 _ hwellFormed with
    ⟨_, hstable, hdisjoint, _, _⟩
  intro hname
  have hne : Fixture.otherEndpointId ≠ Fixture.officeEndpointId := by
    decide +kernel
  have hoffice : Fixture.officeEndpointId ∈ Fixture.impersonatingSnapshot := by
    decide +kernel
  exact hdisjoint _ _ _ _ hne hname (hstable _ hoffice) rfl

end Attached
