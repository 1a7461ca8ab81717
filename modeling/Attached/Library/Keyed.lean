import Mathlib

/-!
This module contains the theory of ordered maps that are built from lists of keyed values, as
`collect::<BTreeMap<_, _>>()` builds them. The map operations themselves come from `Std.TreeMap`.
-/

open Std

namespace Keyed

variable {κ : Type u} {α : Type v} [Ord κ] [TransOrd κ] [LawfulEqOrd κ]

def indexBy (key : α → κ) (l : List α) : TreeMap κ α compare :=
  TreeMap.ofList (l.map fun a => (key a, a)) compare

def intoValues (m : TreeMap κ α compare) : List α :=
  m.toList.map Prod.snd

def IsKeyed (key : α → κ) (m : TreeMap κ α compare) : Prop :=
  ∀ {k : κ} {a : α}, m[k]? = some a → key a = k

theorem getElem?_erase_of_ne {m : TreeMap κ α compare} {k k' : κ} (h : k ≠ k')
    : (m.erase k)[k']? = m[k']? := by
  rw [TreeMap.getElem?_erase]
  simp [h]

omit [TransOrd κ] [LawfulEqOrd κ] in
theorem lawfulBEqOrd : @LawfulBEqOrd κ beqOfOrd _ := by
  let _ : BEq κ := beqOfOrd
  constructor
  intro a b
  change compare a b = .eq ↔ (compare a b).isEq = true
  cases compare a b <;> simp

theorem getElem?_indexBy_eq_some_iff {key : α → κ} {l : List α} (hnodup : (l.map key).Nodup) {k : κ}
    {a : α} : (indexBy key l)[k]? = some a ↔ a ∈ l ∧ key a = k := by
  have hpairwise : (l.map fun a => (key a, a)).Pairwise fun a b => ¬compare a.1 b.1 = .eq := by
    rw [List.pairwise_map]
    rw [List.nodup_iff_pairwise_ne, List.pairwise_map] at hnodup
    apply hnodup.imp
    intro a b hne heq
    exact hne (LawfulEqOrd.eq_of_compare heq)
  constructor
  . intro h
    by_cases hmem : k ∈ l.map key
    . rw [List.mem_map] at hmem
      rcases hmem with ⟨b, hb, rfl⟩
      have hlookup : (indexBy key l)[key b]? = some b := by
        apply TreeMap.getElem?_ofList_of_mem (k := key b) ReflOrd.compare_self hpairwise
        exact List.mem_map.mpr ⟨b, hb, rfl⟩
      rw [hlookup] at h
      injection h with h
      subst h
      exact ⟨hb, rfl⟩
    . have hnone : k ∉ indexBy key l := by
        unfold indexBy
        let _ : BEq κ := beqOfOrd
        have : LawfulBEqOrd κ := lawfulBEqOrd
        rw [TreeMap.mem_ofList]
        simp only [List.map_map, List.contains_iff_exists_mem_beq, not_exists, not_and]
        intro b hb heq
        apply hmem
        have hkb : compare k b = .eq := LawfulBEqCmp.compare_eq_iff_beq.mpr heq
        rw [LawfulEqOrd.eq_of_compare hkb]
        simpa using hb
      rw [TreeMap.mem_iff_isSome_getElem?, h] at hnone
      simp at hnone
  . intro h
    rcases h with ⟨hmem, rfl⟩
    apply TreeMap.getElem?_ofList_of_mem (k := key a) ReflOrd.compare_self hpairwise
    exact List.mem_map.mpr ⟨a, hmem, rfl⟩

theorem mem_intoValues {m : TreeMap κ α compare} {a : α}
    : a ∈ intoValues m ↔ ∃ k : κ, m[k]? = some a := by
  unfold intoValues
  simp [TreeMap.mem_toList_iff_getElem?_eq_some]

theorem map_key_intoValues {key : α → κ} {m : TreeMap κ α compare} (h : IsKeyed key m)
    : (intoValues m).map key = m.keys := by
  rw [← TreeMap.map_fst_toList_eq_keys]
  unfold intoValues
  rw [List.map_map]
  apply List.map_congr_left
  intro p hp
  exact h (TreeMap.mem_toList_iff_getElem?_eq_some.mp hp)

theorem nodup_map_key_intoValues {key : α → κ} {m : TreeMap κ α compare} (h : IsKeyed key m)
    : ((intoValues m).map key).Nodup := by
  rw [map_key_intoValues h]
  apply TreeMap.ordered_keys.imp
  intro a b hlt heq
  subst heq
  simp at hlt

theorem toList_eq_map {β : Type w} {m : TreeMap κ α compare} {m' : TreeMap κ β compare} {f : κ → α → β}
    (h : ∀ k : κ, m'[k]? = m[k]?.map (f k)) : m'.toList = m.toList.map fun p => (p.1, f p.1 p.2) := by
  have hequiv : m'.Equiv (m.map f) := by
    apply TreeMap.Equiv.of_forall_constGet?_eq
    intro k
    rw [h, TreeMap.getElem?_map]
  rw [hequiv.toList_eq, TreeMap.toList_map]

theorem getElem?_ofList_map_toList {β : Type w} {m : TreeMap κ α compare} {f : κ → α → β} {k : κ}
    : (TreeMap.ofList (m.toList.map fun p => (p.1, f p.1 p.2)) compare)[k]? = m[k]?.map (f k) := by
  have hkeys : ((m.toList.map fun p => (p.1, f p.1 p.2)).map Prod.fst) = m.keys := by
    rw [List.map_map, ← TreeMap.map_fst_toList_eq_keys]
    rfl
  cases h : m[k]? with
  | none =>
    let _ : BEq κ := beqOfOrd
    have : LawfulBEqOrd κ := lawfulBEqOrd
    apply TreeMap.getElem?_ofList_of_contains_eq_false
    rw [hkeys, TreeMap.contains_keys, TreeMap.contains_eq_isSome_getElem?, h]
    rfl
  | some a =>
    apply TreeMap.getElem?_ofList_of_mem (k := k) ReflOrd.compare_self
    . rw [List.pairwise_map]
      exact TreeMap.distinct_keys_toList
    . exact List.mem_map.mpr ⟨(k, a), TreeMap.mem_toList_iff_getElem?_eq_some.mpr h, rfl⟩

theorem getElem?_ofList_toList {m : TreeMap κ α compare} {k : κ}
    : (TreeMap.ofList m.toList compare)[k]? = m[k]? := by
  have hmap := getElem?_ofList_map_toList (m := m) (f := fun _ a => a) (k := k)
  rwa [List.map_id', Option.map_id'] at hmap

omit [Ord κ] [TransOrd κ] [LawfulEqOrd κ] in
theorem countP_eq_one_iff {key : α → κ} {l : List α} (hnodup : (l.map key).Nodup) {p : α → Bool} {a : α}
    (hmem : a ∈ l) (ha : p a = true) : l.countP p = 1 ↔ ∀ b ∈ l, p b = true → key b = key a := by
  have hfiltered {b : α} : b ∈ l.filter p ↔ b ∈ l ∧ p b = true := List.mem_filter
  have ha' := hfiltered.mpr ⟨hmem, ha⟩
  rw [List.countP_eq_length_filter]
  constructor
  . intro hlength b hb hp
    rcases List.length_eq_one_iff.mp hlength with ⟨c, hc⟩
    have hb' := hfiltered.mpr ⟨hb, hp⟩
    rw [hc, List.mem_singleton] at ha' hb'
    rw [ha', hb']
  . intro hkeys
    have hnodup' : ((l.filter p).map key).Nodup := hnodup.sublist (List.filter_sublist.map key)
    cases hl : l.filter p with
    | nil => simp [hl] at ha'
    | cons b rest =>
      cases rest with
      | nil => rfl
      | cons c rest =>
        have hb := hfiltered.mp (hl ▸ List.mem_cons_self)
        have hc := hfiltered.mp (hl ▸ List.mem_cons_of_mem _ List.mem_cons_self)
        rw [hl] at hnodup'
        simp [hkeys b hb.1 hb.2, hkeys c hc.1 hc.2] at hnodup'

end Keyed
