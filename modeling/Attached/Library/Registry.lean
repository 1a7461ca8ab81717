import Attached.Library.Keyed

/-!
This module contains registries: maps that have exactly those members that say that they are
registered, each under the key that it says.
-/

open Std

namespace Registry

variable {κ : Type u} {C : Type v} [Ord κ] [TransOrd κ] [LawfulEqOrd κ] {m : TreeMap κ C compare}
  {registered registered' : C → κ → Prop} {c d : C} {k : κ}

/--
`c` is in the map under `k` exactly if it is registered under `k`.
-/
def Lists (m : TreeMap κ C compare) (registered : C → κ → Prop) : Prop :=
  ∀ k c, m[k]? = some c ↔ registered c k

omit [LawfulEqOrd κ] in
theorem lists_empty (h : ∀ c k, ¬registered c k) : Lists ∅ registered := by
  intro k c
  simp [h c k]

omit [TransOrd κ] [LawfulEqOrd κ] in
theorem Lists.congr (h : Lists m registered) (hsame : ∀ c k, registered' c k ↔ registered c k)
    : Lists m registered' := by
  intro k c
  rw [hsame]
  exact h k c

omit [TransOrd κ] [LawfulEqOrd κ] in
theorem Lists.unique (h : Lists m registered) (hc : registered c k) (hd : registered d k)
    : c = d := by
  rw [← h, (h k d).mpr hd, Option.some.injEq] at hc
  exact hc.symm

theorem Lists.insert (h : Lists m registered) (hfresh : ∀ d, ¬registered d k)
    (hbefore : ∀ k', ¬registered c k') (hafter : ∀ k', registered' c k' ↔ k' = k)
    (hothers : ∀ d, d ≠ c → ∀ k', registered' d k' ↔ registered d k')
    : Lists (m.insert k c) registered' := by
  intro k' d
  rw [TreeMap.getElem?_insert]
  by_cases hd : d = c
  . rw [hd, hafter]
    split
    . next heq => simp [LawfulEqOrd.eq_of_compare heq]
    . next hne =>
      rw [h]
      constructor
      . intro hregistered
        exact absurd hregistered (hbefore k')
      . rintro rfl
        exact absurd ReflOrd.compare_self hne
  . rw [hothers d hd]
    split
    . next heq =>
      have hkey := LawfulEqOrd.eq_of_compare heq
      rw [← hkey]
      simp [Ne.symm hd, hfresh d]
    . exact h k' d

theorem Lists.erase (h : Lists m registered) (hbefore : ∀ k', registered c k' ↔ k' = k)
    (hafter : ∀ k', ¬registered' c k')
    (hothers : ∀ d, d ≠ c → ∀ k', registered' d k' ↔ registered d k')
    : Lists (m.erase k) registered' := by
  intro k' d
  rw [TreeMap.getElem?_erase]
  by_cases hd : d = c
  . rw [hd]
    simp only [hafter, iff_false]
    split
    . nofun
    . next hne =>
      rw [h, hbefore]
      rintro rfl
      exact hne ReflOrd.compare_self
  . rw [hothers d hd]
    split
    . next heq =>
      have hkey := LawfulEqOrd.eq_of_compare heq
      rw [← hkey]
      simp only [reduceCtorEq, false_iff]
      intro hregistered
      exact hd (h.unique hregistered ((hbefore k).mpr rfl))
    . exact h k' d

omit [LawfulEqOrd κ] in
theorem Lists.isEmpty (h : Lists m registered) (hnone : ∀ c k, ¬registered c k)
    : m.isEmpty = true := by
  rw [TreeMap.isEmpty_iff_forall_not_mem]
  intro k hmem
  rw [TreeMap.mem_iff_isSome_getElem?, Option.isSome_iff_exists] at hmem
  rcases hmem with ⟨c, hc⟩
  exact hnone c k ((h k c).mp hc)

end Registry
