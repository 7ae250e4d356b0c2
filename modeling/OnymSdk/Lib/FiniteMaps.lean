/-
  File:      OnymSdk/Lib/FiniteMaps.lean
  Subject:   FINITE MAPS, entry by entry.

  * `filterMap` -- some of the entries, each with a new value;
  * `lookup_filterMap` -- what stands under a key depends on that key alone;
  * `filterMap_eq_self` -- **when nothing is lost and nothing changed**.
-/
import Mathlib.Data.Finmap

namespace FiniteMaps

universe u v

variable {α : Type u} {β γ : α → Type v} [DecidableEq α]

/-- The entries that `f` keeps, with the values it gives them. -/
def filterMap (f : ∀ a, β a → Option (γ a)) (s : Finmap β) : Finmap γ :=
  Finmap.keysLookupEquiv.symm
    ⟨(s.keys.filter fun a => ((s.lookup a).bind (f a)).isSome, fun a => (s.lookup a).bind (f a)), by
      intro a
      rw [Finset.mem_filter, Finmap.mem_keys, ← Finmap.lookup_isSome, Option.isSome_bind]
      cases h : s.lookup a <;> simp⟩

@[simp] theorem lookup_filterMap (f : ∀ a, β a → Option (γ a)) (s : Finmap β) (a : α) :
    (filterMap f s).lookup a = (s.lookup a).bind (f a) := by
  rw [filterMap, Finmap.keysLookupEquiv_symm_apply_lookup]

/-- **Nothing is lost and nothing changed** exactly if every entry is kept as it is. -/
theorem filterMap_eq_self {f : ∀ a, β a → Option (β a)} {s : Finmap β} :
    filterMap f s = s ↔ ∀ a b, s.lookup a = some b → f a b = some b := by
  constructor
  · intro h a b hb
    have e := lookup_filterMap f s a
    rw [h, hb, Option.bind_some] at e
    exact e.symm
  · intro h
    apply Finmap.ext_lookup
    intro a
    rw [lookup_filterMap]
    cases hb : s.lookup a with
    | none => rfl
    | some b => exact h a b hb

end FiniteMaps
