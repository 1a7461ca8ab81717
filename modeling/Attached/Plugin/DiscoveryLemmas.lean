import Attached.Plugin.Discovery

/-!
This module contains which hosts of a snapshot the plugin accepts: those that are well formed and
agree on each endpoint.
-/

open Std

namespace Attached

def DiscoveryHost.WellFormed (host : DiscoveryHost) : Prop :=
  isEndpoint host.endpointId = true ∧ host.hasLabel = true
    ∧ host.sshTarget = attachedTarget host.endpointId

namespace Discovery

def Consistent (unique : TreeMap String DiscoveryHost) (hosts : List DiscoveryHost) : Prop :=
  ∀ a ∈ hosts, (∀ b ∈ hosts, a.endpointId = b.endpointId → a = b)
    ∧ ∀ b, unique[a.endpointId]? = some b → b = a

theorem insertHosts_cons_eq_ok_iff {unique result : TreeMap String DiscoveryHost} {host : DiscoveryHost}
    {hosts : List DiscoveryHost}
    : insertHosts unique (host :: hosts) = .ok result
        ↔
      host.WellFormed ∧ (∀ previous, unique[host.endpointId]? = some previous → previous = host)
        ∧ insertHosts (unique.insert host.endpointId host) hosts = .ok result := by
  simp only [insertHosts, Except.bind_eq_ok_iff, Except.ensure_eq_ok_iff, exists_const,
    DiscoveryHost.WellFormed, beq_iff_eq, Option.all_eq_true, and_assoc]

theorem getElem?_insertHosts {unique result : TreeMap String DiscoveryHost} {hosts : List DiscoveryHost}
    (h : insertHosts unique hosts = .ok result) {endpoint : String} {host : DiscoveryHost}
    : result[endpoint]? = some host
        ↔
      (host ∈ hosts ∧ host.endpointId = endpoint) ∨ unique[endpoint]? = some host := by
  induction hosts generalizing unique with
  | nil =>
    rw [insertHosts, Except.ok.injEq] at h
    simp [h]
  | cons first hosts ih =>
    rw [insertHosts_cons_eq_ok_iff] at h
    rcases h with ⟨_, hprevious, hrest⟩
    rw [ih hrest, TreeMap.getElem?_insert, List.mem_cons]
    by_cases hendpoint : first.endpointId = endpoint
    . subst hendpoint
      simp only [compare_self, if_true, Option.some.injEq]
      constructor
      . rintro (⟨hmem, heq⟩ | rfl)
        . exact Or.inl ⟨Or.inr hmem, heq⟩
        . exact Or.inl ⟨Or.inl rfl, rfl⟩
      . rintro (⟨rfl | hmem, heq⟩ | hsome)
        . exact Or.inr rfl
        . exact Or.inl ⟨hmem, heq⟩
        . exact Or.inr (hprevious host hsome).symm
    . have hcompare : ¬compare first.endpointId endpoint = .eq :=
        fun heq => hendpoint (LawfulEqOrd.eq_of_compare heq)
      rw [if_neg hcompare]
      constructor
      . rintro (⟨hmem, heq⟩ | hsome)
        . exact Or.inl ⟨Or.inr hmem, heq⟩
        . exact Or.inr hsome
      . rintro (⟨rfl | hmem, heq⟩ | hsome)
        . exact absurd heq hendpoint
        . exact Or.inl ⟨hmem, heq⟩
        . exact Or.inr hsome

theorem exists_insertHosts_iff {unique : TreeMap String DiscoveryHost} {hosts : List DiscoveryHost}
    : (∃ result, insertHosts unique hosts = .ok result)
        ↔
      (∀ host ∈ hosts, host.WellFormed) ∧ Consistent unique hosts := by
  induction hosts generalizing unique with
  | nil => simp [insertHosts, Consistent]
  | cons host hosts ih =>
    simp only [insertHosts_cons_eq_ok_iff, exists_and_left, ih, List.forall_mem_cons]
    constructor
    . rintro ⟨hhost, hprevious, hhosts, hconsistent⟩
      have hsame : ∀ a ∈ hosts, a.endpointId = host.endpointId → a = host := by
        intro a ha heq
        apply ((hconsistent a ha).2 host _).symm
        rw [heq, TreeMap.getElem?_insert_self]
      refine ⟨⟨hhost, hhosts⟩, ?_⟩
      intro a ha
      rcases List.mem_cons.mp ha with rfl | hrest
      . refine ⟨?_, hprevious⟩
        intro b hb heq
        rcases List.mem_cons.mp hb with rfl | hb
        . rfl
        . exact (hsame b hb heq.symm).symm
      . constructor
        . intro b hb heq
          rcases List.mem_cons.mp hb with rfl | hb
          . exact hsame a hrest heq
          . exact (hconsistent a hrest).1 b hb heq
        . intro b hb
          by_cases heq : host.endpointId = a.endpointId
          . rw [← heq] at hb
            rw [hprevious b hb, hsame a hrest heq.symm]
          . apply (hconsistent a hrest).2 b
            rw [TreeMap.getElem?_insert, if_neg fun h => heq (LawfulEqOrd.eq_of_compare h)]
            exact hb
    . rintro ⟨⟨hhost, hhosts⟩, hconsistent⟩
      have hfirst := hconsistent host List.mem_cons_self
      refine ⟨hhost, hfirst.2, hhosts, ?_⟩
      intro a ha
      have hrest := hconsistent a (List.mem_cons_of_mem _ ha)
      refine ⟨fun b hb => hrest.1 b (List.mem_cons_of_mem _ hb), ?_⟩
      intro b hb
      rw [TreeMap.getElem?_insert] at hb
      split at hb
      . next heq =>
        injection hb with hb
        rw [← hb]
        exact hfirst.1 a (List.mem_cons_of_mem _ ha) (LawfulEqOrd.eq_of_compare heq)
      . exact hrest.2 b hb

theorem validateHosts_eq_ok {hosts valid : List DiscoveryHost} (h : validateHosts hosts = .ok valid)
    : (∀ host, host ∈ valid ↔ host ∈ hosts) ∧ (valid.map DiscoveryHost.endpointId).Nodup := by
  simp only [validateHosts, Except.bind_eq_ok_iff, Except.pure_eq_ok_iff] at h
  rcases h with ⟨unique, hunique, rfl⟩
  constructor
  . intro host
    rw [Keyed.mem_intoValues]
    constructor
    . rintro ⟨endpoint, hendpoint⟩
      rcases (getElem?_insertHosts hunique).mp hendpoint with ⟨hmem, _⟩ | hempty
      . exact hmem
      . simp at hempty
    . intro hmem
      exact ⟨host.endpointId, (getElem?_insertHosts hunique).mpr (Or.inl ⟨hmem, rfl⟩)⟩
  . apply Keyed.nodup_map_key_intoValues
    intro endpoint host hhost
    rcases (getElem?_insertHosts hunique).mp hhost with ⟨_, heq⟩ | hempty
    . exact heq
    . simp at hempty

theorem exists_validateHosts_iff {hosts : List DiscoveryHost}
    : (∃ valid, validateHosts hosts = .ok valid)
        ↔
      (∀ host ∈ hosts, host.WellFormed)
        ∧ ∀ a ∈ hosts, ∀ b ∈ hosts, a.endpointId = b.endpointId → a = b := by
  have hinsert : (∃ result, insertHosts ∅ hosts = .ok result) ↔ _ := exists_insertHosts_iff
  simp only [Consistent, TreeMap.getElem?_emptyc, reduceCtorEq, false_implies, implies_true,
    and_true] at hinsert
  rw [← hinsert]
  simp only [validateHosts, Except.bind_eq_ok_iff, Except.pure_eq_ok_iff]
  constructor
  . rintro ⟨_, unique, hunique, _⟩
    exact ⟨unique, hunique⟩
  . rintro ⟨unique, hunique⟩
    exact ⟨_, unique, hunique, rfl⟩

theorem parse_eq_ok_iff {output : List UInt8} {now : Nat} {discovery : Discovery}
    : parse output now = .ok discovery
        ↔
      ∃ read hosts, (Json.parse output >>= ofJson) = some read ∧ read.version = 1
        ∧ read.generation ≠ "" ∧ (Bytes.ofString read.generation).length ≤ 64
        ∧ read.checkedAt ≤ now ∧ now - read.checkedAt ≤ 90
        ∧ validateHosts read.hosts = .ok hosts ∧ discovery = { read with hosts := hosts } := by
  have hempty {text : String} : (Bytes.ofString text).isEmpty = false ↔ text ≠ "" := by
    rw [← Bool.not_eq_true, List.isEmpty_iff, Ne, ← Bytes.ofString_inj]
    rfl
  simp only [parse, Except.bind_eq_ok_iff, Except.okOr_eq_ok_iff, Except.ensure_eq_ok_iff,
    Except.pure_eq_ok_iff, exists_const, beq_iff_eq, Bool.and_eq_true, Bool.not_eq_true',
    decide_eq_true_eq, hempty, and_assoc, exists_and_left, eq_comm (b := discovery)]

end Discovery

end Attached
