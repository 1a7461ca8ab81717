import Mathlib

/-!
This module contains authenticated encryption with associated data as an ideal functionality: a
cipher whose decryption accepts nothing but what was encrypted. No function on byte strings is ideal
for all of its inputs, so being ideal is relative to the set of everything that is ever encrypted.
-/

structure Aead (κ : Type u) (ν : Type v) where
  encrypt (key : κ) (nonce : ν) (aad plaintext : List UInt8) : Option (List UInt8)
  decrypt (key : κ) (nonce : ν) (aad ciphertext : List UInt8) : Option (List UInt8)

namespace Aead

structure Sealing (κ : Type u) (ν : Type v) where
  key : κ
  nonce : ν
  aad : List UInt8
  plaintext : List UInt8
  deriving DecidableEq

variable {κ : Type u} {ν : Type v}

def Sealing.ciphertext (s : Sealing κ ν) (aead : Aead κ ν) : Option (List UInt8) :=
  aead.encrypt s.key s.nonce s.aad s.plaintext

/--
The cipher is ideal if `sealed` is everything that is ever encrypted with it.
-/
structure Ideal (aead : Aead κ ν) (tagBytes : Nat) (sealed : Set (Sealing κ ν)) : Prop where
  total : ∀ s : Sealing κ ν, (s.ciphertext aead).isSome
  length : ∀ {s : Sealing κ ν} {ciphertext : List UInt8}, s.ciphertext aead = some ciphertext →
    ciphertext.length = s.plaintext.length + tagBytes
  decrypt_iff : ∀ {key : κ} {nonce : ν} {aad ciphertext plaintext : List UInt8},
    aead.decrypt key nonce aad ciphertext = some plaintext
      ↔
    ⟨key, nonce, aad, plaintext⟩ ∈ sealed
      ∧ aead.encrypt key nonce aad plaintext = some ciphertext
  unique : ∀ {s t : Sealing κ ν} {ciphertext : List UInt8}, s ∈ sealed → t ∈ sealed →
    s.ciphertext aead = some ciphertext → t.ciphertext aead = some ciphertext → s = t

structure Correct (aead : Aead κ ν) (tagBytes : Nat) : Prop where
  total : ∀ (key : κ) (nonce : ν) (aad plaintext : List UInt8),
    (aead.encrypt key nonce aad plaintext).isSome
  length : ∀ {key : κ} {nonce : ν} {aad plaintext ciphertext : List UInt8},
    aead.encrypt key nonce aad plaintext = some ciphertext →
    ciphertext.length = plaintext.length + tagBytes
  decrypt : ∀ {key : κ} {nonce : ν} {aad plaintext ciphertext : List UInt8},
    aead.encrypt key nonce aad plaintext = some ciphertext →
    aead.decrypt key nonce aad ciphertext = some plaintext

def FreshNonces (sealed : Set (Sealing κ ν)) : Prop :=
  ∀ {s t : Sealing κ ν}, s ∈ sealed → t ∈ sealed → s.key = t.key → s.nonce = t.nonce → s = t

namespace Ideal

variable {aead : Aead κ ν} {tagBytes : Nat} {sealed : Set (Sealing κ ν)} {key key' : κ}
  {nonce nonce' : ν} {aad aad' plaintext plaintext' ciphertext ciphertext' : List UInt8}

theorem exists_encrypt (h : aead.Ideal tagBytes sealed) (key : κ) (nonce : ν)
    (aad plaintext : List UInt8)
    : ∃ ciphertext, aead.encrypt key nonce aad plaintext = some ciphertext
        ∧ ciphertext.length = plaintext.length + tagBytes := by
  rcases Option.isSome_iff_exists.mp (h.total ⟨key, nonce, aad, plaintext⟩) with
    ⟨ciphertext, hciphertext⟩
  exact ⟨ciphertext, hciphertext, h.length hciphertext⟩

theorem decrypt_context (h : aead.Ideal tagBytes sealed)
    (hmem : ⟨key, nonce, aad, plaintext⟩ ∈ sealed)
    (hencrypt : aead.encrypt key nonce aad plaintext = some ciphertext)
    (hdecrypt : aead.decrypt key' nonce' aad' ciphertext = some plaintext')
    : key' = key ∧ nonce' = nonce ∧ aad' = aad ∧ plaintext' = plaintext := by
  rcases h.decrypt_iff.mp hdecrypt with ⟨hmem', hencrypt'⟩
  have heq := h.unique hmem' hmem hencrypt' hencrypt
  injection heq with hkey hnonce haad hplaintext
  exact ⟨hkey, hnonce, haad, hplaintext⟩

theorem decrypt_ciphertext (h : aead.Ideal tagBytes sealed) (hfresh : FreshNonces sealed)
    (hmem : ⟨key, nonce, aad, plaintext⟩ ∈ sealed)
    (hencrypt : aead.encrypt key nonce aad plaintext = some ciphertext)
    (hdecrypt : aead.decrypt key nonce aad' ciphertext' = some plaintext')
    : ciphertext' = ciphertext := by
  rcases h.decrypt_iff.mp hdecrypt with ⟨hmem', hencrypt'⟩
  have heq := hfresh hmem' hmem rfl rfl
  injection heq with _ _ haad hplaintext
  subst haad hplaintext
  rw [hencrypt] at hencrypt'
  injection hencrypt' with hencrypt'
  exact hencrypt'.symm

end Ideal

def ledger [DecidableEq κ] [DecidableEq ν] (s : Sealing κ ν) (tag : List UInt8) : Aead κ ν where
  encrypt _ _ _ plaintext := some (plaintext ++ tag)
  decrypt key nonce aad ciphertext :=
    if key = s.key ∧ nonce = s.nonce ∧ aad = s.aad ∧ ciphertext = s.plaintext ++ tag then
      some s.plaintext
    else
      none

theorem ideal_ledger [DecidableEq κ] [DecidableEq ν] (s : Sealing κ ν) (tag : List UInt8)
    : (ledger s tag).Ideal tag.length {s} where
  total _ := rfl
  length := by
    intro t ciphertext h
    simp only [Sealing.ciphertext, ledger, Option.some.injEq] at h
    rw [← h]
    simp
  decrypt_iff := by
    intro key nonce aad ciphertext plaintext
    rcases s with ⟨key', nonce', aad', plaintext'⟩
    simp only [ledger, Set.mem_singleton_iff, Sealing.mk.injEq, Option.some.injEq]
    constructor
    . intro h
      split at h
      . next heq =>
        injection h with h
        rcases heq with ⟨rfl, rfl, rfl, rfl⟩
        exact ⟨⟨rfl, rfl, rfl, h.symm⟩, by rw [h]⟩
      . simp at h
    . rintro ⟨⟨rfl, rfl, rfl, rfl⟩, rfl⟩
      simp
  unique := by
    rintro t u _ rfl rfl _ _
    rfl

def appendTag (tag : List UInt8) : Aead κ ν where
  encrypt _ _ _ plaintext := some (plaintext ++ tag)
  decrypt _ _ _ ciphertext :=
    if tag <:+ ciphertext then some (ciphertext.take (ciphertext.length - tag.length)) else none

theorem correct_appendTag (tag : List UInt8)
    : (appendTag tag : Aead κ ν).Correct tag.length where
  total _ _ _ _ := rfl
  length := by
    rintro _ _ _ plaintext _ ⟨⟩
    exact List.length_append
  decrypt := by
    rintro _ _ _ plaintext _ ⟨⟩
    simp [appendTag]

theorem freshNonces_singleton (s : Sealing κ ν) : FreshNonces {s} := by
  rintro t u rfl rfl _ _
  rfl

end Aead
