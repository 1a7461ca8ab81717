import Attached.Local.Envelope

/-!
This module contains the theory of the local envelope: what `seal` writes, what `open` accepts, and
that with an ideal cipher these are the same.
-/

namespace Attached

namespace LocalEncryption

def layout (nonce : Vector UInt8 nonceBytes) (ciphertext : List UInt8) : List UInt8 :=
  magic ++ [version] ++ nonce.toList ++ ciphertext

@[simp]
theorem length_layout (nonce : Vector UInt8 nonceBytes) (ciphertext : List UInt8)
    : (layout nonce ciphertext).length = headerBytes + ciphertext.length := by
  simp [layout, headerBytes]
  omega

theorem layout_inj {nonce nonce' : Vector UInt8 nonceBytes} {ciphertext ciphertext' : List UInt8}
    : layout nonce ciphertext = layout nonce' ciphertext'
        ↔
      nonce = nonce' ∧ ciphertext = ciphertext' := by
  constructor
  . intro h
    simp only [layout, List.append_assoc, List.append_cancel_left_eq] at h
    have hnonce := List.append_inj_left h (by simp)
    have hciphertext := List.append_inj_right h (by simp)
    exact ⟨Vector.toList_inj.mp hnonce, hciphertext⟩
  . rintro ⟨rfl, rfl⟩
    rfl

theorem isEnvelope_layout (nonce : Vector UInt8 nonceBytes) (ciphertext : List UInt8)
    : isEnvelope (layout nonce ciphertext) = true := by
  rw [isEnvelope, List.isPrefixOf_iff_prefix]
  simp [layout]

theorem exists_layout {envelope : List UInt8} (hlength : headerBytes ≤ envelope.length)
    (hmagic : magic.isPrefixOf envelope = true) (hversion : envelope[magic.length]? = some version)
    : ∃ nonce ciphertext, envelope = layout nonce ciphertext := by
  rw [List.isPrefixOf_iff_prefix] at hmagic
  rcases hmagic with ⟨rest, rfl⟩
  rw [List.getElem?_append_right (by omega), Nat.sub_self] at hversion
  cases rest with
  | nil => simp at hversion
  | cons byte rest =>
    simp only [List.getElem?_cons_zero, Option.some.injEq] at hversion
    subst hversion
    have hrest : nonceBytes ≤ rest.length := by
      simp only [headerBytes, List.length_append, List.length_cons] at hlength
      omega
    refine ⟨⟨(rest.take nonceBytes).toArray, by simp [hrest]⟩, rest.drop nonceBytes, ?_⟩
    simp [layout]

theorem checkedAdd_eq_some_iff {a b c : Nat}
    : checkedAdd a b = some c ↔ a + b ≤ usizeMax ∧ c = a + b := by
  unfold checkedAdd
  split
  . next h => simp [h, eq_comm]
  . next h => simp [h]

section

variable {aead : Aead (Vector UInt8 32) (Vector UInt8 nonceBytes)}
  {key : Vector UInt8 32} {purpose : Purpose} {plaintext envelope : List UInt8} {limit : Nat}

theorem sealSecret_eq_ok_iff {random : Option (Vector UInt8 nonceBytes)}
    : sealSecret aead key purpose plaintext limit random = .ok envelope
        ↔
      plaintext.length ≤ limit
        ∧ ∃ nonce ciphertext, random = some nonce
          ∧ aead.encrypt key nonce (associatedData purpose) plaintext = some ciphertext
          ∧ envelope = layout nonce ciphertext := by
  simp only [sealSecret, Except.bind_eq_ok_iff, Except.ensure_eq_ok_iff, Except.okOr_eq_ok_iff,
    Except.pure_eq_ok_iff, decide_eq_true_eq, layout]
  constructor
  . rintro ⟨_, hlength, nonce, hnonce, ciphertext, hencrypt, rfl⟩
    exact ⟨hlength, nonce, ciphertext, hnonce, hencrypt, rfl⟩
  . rintro ⟨hlength, nonce, ciphertext, hnonce, hencrypt, rfl⟩
    exact ⟨(), hlength, nonce, hnonce, ciphertext, hencrypt, rfl⟩

theorem slices_layout (nonce : Vector UInt8 nonceBytes) (ciphertext : List UInt8)
    : Failure.index (layout nonce ciphertext) magic.length = .ok version
        ∧ Failure.slice (layout nonce ciphertext) (magic.length + 1) (magic.length + 1 + nonceBytes)
            = .ok nonce.toList
        ∧ Failure.slice (layout nonce ciphertext) (magic.length + 1 + nonceBytes)
            (layout nonce ciphertext).length = .ok ciphertext := by
  refine ⟨?_, ?_, ?_⟩
  . simp [layout]
  . apply Failure.slice_append
    . simp
    . simp
  . have hlayout : layout nonce ciphertext = magic ++ [version] ++ nonce.toList ++ ciphertext ++ [] := by
      simp [layout]
    conv_lhs => rw [hlayout]
    apply Failure.slice_append
    . simp
      omega
    . simp
      omega

theorem openSecret_eq_ok_iff
    : openSecret aead key purpose envelope limit = .ok plaintext
        ↔
      headerBytes + limit + tagBytes ≤ usizeMax
        ∧ plaintext.length ≤ limit
        ∧ ∃ nonce ciphertext, envelope = layout nonce ciphertext
          ∧ tagBytes ≤ ciphertext.length
          ∧ ciphertext.length ≤ limit + tagBytes
          ∧ aead.decrypt key nonce (associatedData purpose) ciphertext = some plaintext := by
  simp only [openSecret, Except.bind_eq_ok_iff, Except.ensure_eq_ok_iff, Except.okOr_eq_ok_iff,
    Except.pure_eq_ok_iff, Option.bind_eq_some_iff, checkedAdd_eq_some_iff, decide_eq_true_eq,
    beq_iff_eq]
  constructor
  . rintro ⟨maximum, ⟨_, ⟨_, rfl⟩, hmaximum, rfl⟩, _, hle, _, hge, _, hmagic, _, hindex, _, rfl, _,
      hnonce, nonce, hfixed, _, hciphertext, _, hdecrypt, _, hlength, rfl⟩
    rcases exists_layout (by omega) hmagic (Failure.index_eq_ok_iff.mp hindex) with
      ⟨nonce', ciphertext, rfl⟩
    rcases slices_layout nonce' ciphertext with ⟨_, hslice, hslice'⟩
    rw [hslice] at hnonce
    rw [hslice'] at hciphertext
    injection hnonce with hnonce
    injection hciphertext with hciphertext
    subst hnonce hciphertext
    rw [toFixed_eq_some_iff, Vector.toList_inj] at hfixed
    subst hfixed
    rw [length_layout] at hle hge
    exact ⟨hmaximum, hlength, _, _, rfl, by omega, by omega, hdecrypt⟩
  . rintro ⟨hmaximum, hlength, nonce, ciphertext, rfl, hge, hle, hdecrypt⟩
    rcases slices_layout nonce ciphertext with ⟨hindex, hslice, hslice'⟩
    refine ⟨headerBytes + limit + tagBytes, ⟨_, ⟨by omega, rfl⟩, hmaximum, rfl⟩, (), ?_, (), ?_, (),
      ?_, version, hindex, (), rfl, _, hslice, nonce, ?_, _, hslice', _, hdecrypt, (), hlength, rfl⟩
    . rw [length_layout]
      omega
    . rw [length_layout]
      omega
    . exact isEnvelope_layout nonce ciphertext
    . exact toFixed_eq_some_iff.mpr rfl

theorem openSecret_ne_panic : openSecret aead key purpose envelope limit ≠ .error .panic := by
  intro h
  simp only [openSecret, Except.bind_eq_error_iff, Except.ensure_eq_ok_iff,
    Except.ensure_eq_error_iff, Except.okOr_eq_ok_iff, Except.okOr_eq_error_iff,
    Failure.index_eq_ok_iff, Failure.index_eq_error_iff, Failure.slice_eq_ok_iff,
    Failure.slice_eq_error_iff, decide_eq_true_eq, reduceCtorEq, and_false, false_or, and_true,
    pure, Except.pure] at h
  rcases h with ⟨_, _, _, _, _, hlength, _, _, h⟩
  simp only [headerBytes] at hlength
  rcases h with hindex | ⟨_, _, _, _, hslice | ⟨_, _, _, _, hslice | ⟨_, _, _, _, _, habsurd⟩⟩⟩
  . omega
  . omega
  . omega
  . exact habsurd

theorem associatedData_inj {purpose purpose' : Purpose}
    : associatedData purpose = associatedData purpose' ↔ purpose = purpose' := by
  cases purpose <;> cases purpose' <;> decide

theorem take_layout (nonce : Vector UInt8 nonceBytes) (ciphertext : List UInt8)
    : (layout nonce ciphertext).take headerBytes = magic ++ [version] ++ nonce.toList := by
  apply List.take_left'
  simp [headerBytes]
  omega

theorem drop_layout (nonce : Vector UInt8 nonceBytes) (ciphertext : List UInt8)
    : (layout nonce ciphertext).drop headerBytes = ciphertext := by
  apply List.drop_left'
  simp [headerBytes]
  omega

end

def Rejected (aead : Aead (Vector UInt8 32) (Vector UInt8 nonceBytes)) (key : Vector UInt8 32)
    (purpose : Purpose) (file : List UInt8) : Prop :=
  ∀ limit plaintext, openSecret aead key purpose file limit ≠ .ok plaintext

section

variable {aead : Aead (Vector UInt8 32) (Vector UInt8 nonceBytes)}
  {sealed : Set (Aead.Sealing (Vector UInt8 32) (Vector UInt8 nonceBytes))}
  {key key' : Vector UInt8 32} {purpose purpose' : Purpose} {nonce : Vector UInt8 nonceBytes}
  {plaintext envelope file : List UInt8} {limit : Nat}

theorem openSecret_layout {ciphertext : List UInt8}
    (hlimit : headerBytes + limit + tagBytes ≤ usizeMax) (hlength : plaintext.length ≤ limit)
    (hciphertext : ciphertext.length = plaintext.length + tagBytes)
    (hdecrypt : aead.decrypt key nonce (associatedData purpose) ciphertext = some plaintext)
    : openSecret aead key purpose (layout nonce ciphertext) limit = .ok plaintext := by
  apply openSecret_eq_ok_iff.mpr
  exact ⟨hlimit, hlength, nonce, ciphertext, rfl, by omega, by omega, hdecrypt⟩

theorem openSecret_sealSecret (hideal : aead.Ideal tagBytes sealed)
    (hlimit : headerBytes + limit + tagBytes ≤ usizeMax)
    (hmem : ⟨key, nonce, associatedData purpose, plaintext⟩ ∈ sealed)
    (hseal : sealSecret aead key purpose plaintext limit (some nonce) = .ok envelope)
    : openSecret aead key purpose envelope limit = .ok plaintext := by
  rcases sealSecret_eq_ok_iff.mp hseal with ⟨hlength, _, ciphertext, hnonce, hencrypt, rfl⟩
  injection hnonce with hnonce
  subst hnonce
  have hciphertext := hideal.length (s := ⟨key, nonce, associatedData purpose, plaintext⟩) hencrypt
  exact openSecret_layout hlimit hlength hciphertext (hideal.decrypt_iff.mpr ⟨hmem, hencrypt⟩)

theorem openSecret_of_correct {random : Option (Vector UInt8 nonceBytes)}
    (hcorrect : aead.Correct tagBytes) (hlimit : headerBytes + limit + tagBytes ≤ usizeMax)
    (hseal : sealSecret aead key purpose plaintext limit random = .ok envelope)
    : openSecret aead key purpose envelope limit = .ok plaintext := by
  rcases sealSecret_eq_ok_iff.mp hseal with ⟨hlength, _, ciphertext, _, hencrypt, rfl⟩
  exact openSecret_layout hlimit hlength (hcorrect.length hencrypt) (hcorrect.decrypt hencrypt)

theorem sealed_of_openSecret (hideal : aead.Ideal tagBytes sealed)
    (hopen : openSecret aead key purpose file limit = .ok plaintext)
    : plaintext.length ≤ limit
        ∧ ∃ nonce, ⟨key, nonce, associatedData purpose, plaintext⟩ ∈ sealed
          ∧ sealSecret aead key purpose plaintext limit (some nonce) = .ok file := by
  rcases openSecret_eq_ok_iff.mp hopen with ⟨_, hlength, nonce, ciphertext, rfl, _, _, hdecrypt⟩
  rcases hideal.decrypt_iff.mp hdecrypt with ⟨hmem, hencrypt⟩
  refine ⟨hlength, nonce, hmem, ?_⟩
  exact sealSecret_eq_ok_iff.mpr ⟨hlength, nonce, ciphertext, rfl, hencrypt, rfl⟩

theorem eq_of_openSecret (hideal : aead.Ideal tagBytes sealed) (hfresh : Aead.FreshNonces sealed)
    (hmem : ⟨key, nonce, associatedData purpose, plaintext⟩ ∈ sealed)
    (hseal : sealSecret aead key purpose plaintext limit (some nonce) = .ok envelope)
    {limit' : Nat} {plaintext' : List UInt8}
    (hopen : openSecret aead key purpose' file limit' = .ok plaintext')
    (hshared : file.take headerBytes = envelope.take headerBytes
      ∨ file.drop headerBytes = envelope.drop headerBytes) : file = envelope := by
  rcases sealSecret_eq_ok_iff.mp hseal with ⟨_, _, ciphertext, hnonce, hencrypt, rfl⟩
  injection hnonce with hnonce
  subst hnonce
  rcases openSecret_eq_ok_iff.mp hopen with ⟨_, _, nonce', ciphertext', rfl, _, _, hdecrypt⟩
  simp only [take_layout, drop_layout, List.append_cancel_left_eq, Vector.toList_inj] at hshared
  apply layout_inj.mpr
  cases hshared with
  | inl hnonce =>
    subst hnonce
    exact ⟨rfl, hideal.decrypt_ciphertext hfresh hmem hencrypt hdecrypt⟩
  | inr hciphertext =>
    subst hciphertext
    exact ⟨(hideal.decrypt_context hmem hencrypt hdecrypt).2.1, rfl⟩

theorem rejected_of_context (hideal : aead.Ideal tagBytes sealed)
    (hmem : ⟨key, nonce, associatedData purpose, plaintext⟩ ∈ sealed)
    (hseal : sealSecret aead key purpose plaintext limit (some nonce) = .ok envelope)
    (hcontext : key' ≠ key ∨ purpose' ≠ purpose) : Rejected aead key' purpose' envelope := by
  intro limit' plaintext' hopen
  rcases sealSecret_eq_ok_iff.mp hseal with ⟨_, _, ciphertext, hnonce, hencrypt, rfl⟩
  injection hnonce with hnonce
  subst hnonce
  rcases openSecret_eq_ok_iff.mp hopen with ⟨_, _, nonce', ciphertext', hlayout, _, _, hdecrypt⟩
  rcases layout_inj.mp hlayout with ⟨rfl, rfl⟩
  rcases hideal.decrypt_context hmem hencrypt hdecrypt with ⟨hkey, _, haad, _⟩
  rw [associatedData_inj] at haad
  cases hcontext with
  | inl hne => exact hne hkey
  | inr hne => exact hne haad

/--
Everything that can happen to a sealed file on its way to `open`: one byte changes, or bytes at its
end disappear or are added.
-/
inductive Tampered (envelope : List UInt8) : List UInt8 → Prop
  | change (i : Nat) (byte : UInt8) : i < envelope.length → envelope[i]? ≠ some byte →
      Tampered envelope (envelope.set i byte)
  | truncate (n : Nat) : n < envelope.length → Tampered envelope (envelope.take n)
  | append (suffix : List UInt8) : suffix ≠ [] → Tampered envelope (envelope ++ suffix)

theorem Tampered.ne (h : Tampered envelope file) : file ≠ envelope := by
  intro heq
  cases h with
  | change i byte hlt hne =>
    apply hne
    rw [← heq]
    simp [hlt]
  | truncate n hlt =>
    have := congrArg List.length heq
    rw [List.length_take] at this
    omega
  | append suffix hne =>
    apply hne
    exact List.append_right_eq_self.mp heq

theorem Tampered.shared (h : Tampered envelope file) (henvelope : headerBytes ≤ envelope.length)
    (hfile : headerBytes ≤ file.length)
    : file.take headerBytes = envelope.take headerBytes
        ∨ file.drop headerBytes = envelope.drop headerBytes := by
  cases h with
  | change i byte hlt hne =>
    by_cases hi : i < headerBytes
    . apply Or.inr
      rw [List.drop_set, if_pos hi]
    . apply Or.inl
      rw [List.take_set, List.set_eq_of_length_le]
      rw [List.length_take]
      omega
  | truncate n hlt =>
    apply Or.inl
    rw [List.length_take] at hfile
    rw [List.take_take, Nat.min_eq_left (by omega)]
  | append suffix hne =>
    apply Or.inl
    rw [List.take_append_of_le_length henvelope]

theorem Tampered.rejected (htampered : Tampered envelope file)
    (hideal : aead.Ideal tagBytes sealed) (hfresh : Aead.FreshNonces sealed)
    (hmem : ⟨key, nonce, associatedData purpose, plaintext⟩ ∈ sealed)
    (hseal : sealSecret aead key purpose plaintext limit (some nonce) = .ok envelope)
    : Rejected aead key purpose' file := by
  intro limit' plaintext' hopen
  apply htampered.ne
  apply eq_of_openSecret hideal hfresh hmem hseal hopen
  apply htampered.shared
  . rcases sealSecret_eq_ok_iff.mp hseal with ⟨_, _, _, _, _, rfl⟩
    simp
  . rcases openSecret_eq_ok_iff.mp hopen with ⟨_, _, _, _, rfl, _⟩
    simp

theorem length_sealSecret (hideal : aead.Ideal tagBytes sealed)
    (hseal : sealSecret aead key purpose plaintext limit (some nonce) = .ok envelope)
    : envelope.length = headerBytes + plaintext.length + tagBytes
        ∧ envelope.length ≤ storedLimit limit := by
  rcases sealSecret_eq_ok_iff.mp hseal with ⟨hlength, _, ciphertext, hnonce, hencrypt, rfl⟩
  injection hnonce with hnonce
  subst hnonce
  have := hideal.length (s := ⟨key, nonce, associatedData purpose, plaintext⟩) hencrypt
  dsimp at this
  simp only [length_layout, storedLimit]
  omega

theorem local_envelope (hideal : aead.Ideal tagBytes sealed) (hfresh : Aead.FreshNonces sealed)
    : (∀ key purpose plaintext limit nonce, headerBytes + limit + tagBytes ≤ usizeMax →
        ((∃ envelope, sealSecret aead key purpose plaintext limit (some nonce) = .ok envelope)
            ↔ plaintext.length ≤ limit)
          ∧ ∀ envelope, sealSecret aead key purpose plaintext limit (some nonce) = .ok envelope →
            envelope.length = headerBytes + plaintext.length + tagBytes
              ∧ envelope.length ≤ storedLimit limit
              ∧ (∀ name, readSecretOptionalBounded name (some envelope) (storedLimit limit)
                  = .ok (some envelope))
              ∧ (⟨key, nonce, associatedData purpose, plaintext⟩ ∈ sealed →
                  openSecret aead key purpose envelope limit = .ok plaintext
                    ∧ (∀ key' purpose', key' ≠ key ∨ purpose' ≠ purpose →
                        Rejected aead key' purpose' envelope)
                    ∧ ∀ file, Tampered envelope file → ∀ purpose', Rejected aead key purpose' file))
      ∧ (∀ key purpose file limit plaintext,
          openSecret aead key purpose file limit = .ok plaintext →
          plaintext.length ≤ limit
            ∧ ∃ nonce, ⟨key, nonce, associatedData purpose, plaintext⟩ ∈ sealed
              ∧ sealSecret aead key purpose plaintext limit (some nonce) = .ok file)
      ∧ ∀ key purpose file limit, openSecret aead key purpose file limit ≠ .error .panic := by
  refine ⟨?_, ?_, ?_⟩
  . intro key purpose plaintext limit nonce hlimit
    constructor
    . constructor
      . rintro ⟨envelope, hseal⟩
        exact (sealSecret_eq_ok_iff.mp hseal).1
      . intro hlength
        rcases hideal.exists_encrypt key nonce (associatedData purpose) plaintext with
          ⟨ciphertext, hencrypt, _⟩
        exact ⟨_, sealSecret_eq_ok_iff.mpr ⟨hlength, nonce, ciphertext, rfl, hencrypt, rfl⟩⟩
    . intro envelope hseal
      rcases length_sealSecret hideal hseal with ⟨hlength, hstored⟩
      refine ⟨hlength, hstored, ?_, ?_⟩
      . intro name
        simp [readSecretOptionalBounded, hstored, Except.ensure, Functor.map, Except.map]
      . intro hmem
        refine ⟨openSecret_sealSecret hideal hlimit hmem hseal, ?_, ?_⟩
        . intro key' purpose' hcontext
          exact rejected_of_context hideal hmem hseal hcontext
        . intro file htampered purpose'
          exact htampered.rejected hideal hfresh hmem hseal
  . intro key purpose file limit plaintext hopen
    exact sealed_of_openSecret hideal hopen
  . intro key purpose file limit
    exact openSecret_ne_panic

end

end LocalEncryption

namespace Fixture

open LocalEncryption

def masterKey : Vector UInt8 32 :=
  Vector.replicate 32 0x9d

def onlySecret : Aead.Sealing (Vector UInt8 32) (Vector UInt8 nonceBytes) where
  key := masterKey
  nonce := Vector.replicate nonceBytes 7
  aad := associatedData .syncAccount
  plaintext := [1, 2, 3]

def localAead : Aead (Vector UInt8 32) (Vector UInt8 nonceBytes) :=
  Aead.ledger onlySecret (List.replicate tagBytes 0)

theorem ideal_localAead : localAead.Ideal tagBytes {onlySecret} :=
  Aead.ideal_ledger onlySecret (List.replicate tagBytes 0)

end Fixture

theorem LocalEncryption.local_envelope_account
    : ∃ envelope,
        sealSecret Fixture.localAead Fixture.masterKey .syncAccount [1, 2, 3] 3
            (some (Vector.replicate nonceBytes 7)) = .ok envelope
          ∧ openSecret Fixture.localAead Fixture.masterKey .syncAccount envelope 3 = .ok [1, 2, 3]
          ∧ Rejected Fixture.localAead Fixture.masterKey .sshHost envelope
          ∧ Rejected Fixture.localAead Fixture.masterKey .syncAccount (envelope.take 39) := by
  have hall := local_envelope Fixture.ideal_localAead
    (Aead.freshNonces_singleton Fixture.onlySecret)
  have hseal := hall.1 Fixture.masterKey .syncAccount [1, 2, 3] 3 (Vector.replicate nonceBytes 7)
    (by decide)
  rcases hseal.1.mpr (by decide) with ⟨envelope, henvelope⟩
  rcases hseal.2 envelope henvelope with ⟨hlength, _, _, hopen⟩
  rcases hopen rfl with ⟨hopen, hcontext, htampered⟩
  refine ⟨envelope, henvelope, hopen, hcontext _ _ (Or.inr (by decide)), ?_⟩
  apply htampered
  apply Tampered.truncate
  rw [hlength]
  decide

end Attached
