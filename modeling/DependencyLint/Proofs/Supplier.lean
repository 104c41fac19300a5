import DependencyLint.ModuleIndex
import Mathlib.Logic.Relation

/-!
# The search for a supplier

The search below a module keeps a list of modules that wait to be searched and a list of those that
have been. It is right on every index, also where dependencies form a cycle or name a module that is
not indexed.

* `findSupplier_sound`: what is found lies below the start and supplies the imports.
* `findSupplier_complete`: if nothing is found, nothing below the start supplies the imports.

Completeness rests on what the search has behind it (`Covers`): no direct dependency of a searched
module supplies the imports, and each one has been searched or is waiting. When nothing waits any
more, the searched modules are closed under dependency, so all that lies below them is among them.
-/

namespace DependencyLint.ModuleIndex

open Relation

variable {index : ModuleIndex} {imports : List String}

/-- The module `a` declares a dependency on the module `b`. -/
def Edge (index : ModuleIndex) (a b : String) : Prop := ∃ edge ∈ index.dependencies a, edge.id = b

/-- The module `b` can be reached from the module `a` along one or more dependencies. -/
def Below (index : ModuleIndex) : String → String → Prop := TransGen index.Edge

theorem edge_of_lookup {id : String} {targets : List ModuleEdge}
    (h : index.edges.lookup id = some targets) {b : String} :
    index.Edge id b ↔ ∃ edge ∈ targets, edge.id = b := by
  rw [Edge, dependencies, h, Option.getD_some]

theorem not_edge_of_lookup {id : String} (h : index.edges.lookup id = none) (b : String) :
    ¬index.Edge id b := by
  rintro ⟨edge, hedge, -⟩
  rw [dependencies, h] at hedge
  simp at hedge

/-! ## Soundness -/

theorem searchFrom_sound {visited waiting : List String} {r : String}
    (h : searchFrom index imports visited waiting = some r) :
    (∃ id ∈ waiting, index.Below id r) ∧ index.supplies imports r = true := by
  fun_induction searchFrom index imports visited waiting with
  | case1 => cases h
  | case2 visited id waiting _ ih =>
    obtain ⟨⟨a, ha, hbelow⟩, hs⟩ := ih h
    exact ⟨⟨a, List.mem_cons_of_mem id ha, hbelow⟩, hs⟩
  | case3 visited id waiting _ _ ih =>
    obtain ⟨⟨a, ha, hbelow⟩, hs⟩ := ih h
    exact ⟨⟨a, List.mem_cons_of_mem id ha, hbelow⟩, hs⟩
  | case4 visited id waiting _ targets hl edge hfind =>
    cases h
    have hedge : index.Edge id edge.id :=
      (edge_of_lookup hl).2 ⟨edge, List.mem_of_find?_eq_some hfind, rfl⟩
    have hs : index.supplies imports edge.id = true := by simpa using List.find?_some hfind
    exact ⟨⟨id, List.mem_cons_self, .single hedge⟩, hs⟩
  | case5 visited id waiting _ targets hl _ ih =>
    obtain ⟨⟨a, ha, hbelow⟩, hs⟩ := ih h
    refine ⟨?_, hs⟩
    rcases List.mem_append.1 ha with ha | ha
    · obtain ⟨edge, hedge, rfl⟩ := List.mem_map.1 ha
      exact ⟨id, List.mem_cons_self, .head ((edge_of_lookup hl).2 ⟨edge, hedge, rfl⟩) hbelow⟩
    · exact ⟨a, List.mem_cons_of_mem id ha, hbelow⟩

/-- **What is found lies below the start and supplies the imports.** -/
theorem findSupplier_sound {start r : String} (h : index.findSupplier imports start = some r) :
    index.Below start r ∧ index.supplies imports r = true := by
  obtain ⟨⟨a, ha, hbelow⟩, hs⟩ := searchFrom_sound h
  rw [List.mem_singleton.1 ha] at hbelow
  exact ⟨hbelow, hs⟩

/-! ## Completeness -/

/-- Of the dependencies of the searched modules, none supplies the imports, and each one has been
searched or is waiting. -/
def Covers (index : ModuleIndex) (imports visited waiting : List String) : Prop :=
  ∀ a ∈ visited, ∀ b, index.Edge a b →
    index.supplies imports b = false ∧ (b ∈ visited ∨ b ∈ waiting)

/-- A module that has been searched need not wait. -/
theorem Covers.skip {visited waiting : List String} {id : String}
    (h : Covers index imports visited (id :: waiting)) (hv : id ∈ visited) :
    Covers index imports visited waiting := by
  intro a ha b hab
  obtain ⟨hs, hb | hb⟩ := h a ha b hab
  · exact ⟨hs, Or.inl hb⟩
  · rcases List.mem_cons.1 hb with rfl | hb
    · exact ⟨hs, Or.inl hv⟩
    · exact ⟨hs, Or.inr hb⟩

/-- A module is searched: its dependencies `targets` do not supply the imports, and they wait. -/
theorem Covers.search {visited waiting targets : List String} {id : String}
    (h : Covers index imports visited (id :: waiting))
    (ht : ∀ b, index.Edge id b → index.supplies imports b = false ∧ b ∈ targets) :
    Covers index imports (id :: visited) (targets ++ waiting) := by
  intro a ha b hab
  rcases List.mem_cons.1 ha with rfl | ha
  · obtain ⟨hs, hb⟩ := ht b hab
    exact ⟨hs, Or.inr (List.mem_append_left _ hb)⟩
  · obtain ⟨hs, hb | hb⟩ := h a ha b hab
    · exact ⟨hs, Or.inl (List.mem_cons_of_mem id hb)⟩
    · rcases List.mem_cons.1 hb with rfl | hb
      · exact ⟨hs, Or.inl List.mem_cons_self⟩
      · exact ⟨hs, Or.inr (List.mem_append_right _ hb)⟩

/-- A search that finds nothing ends with a closed list of searched modules. -/
theorem searchFrom_closed {visited waiting : List String}
    (h : searchFrom index imports visited waiting = none)
    (hc : Covers index imports visited waiting) :
    ∃ closed, Covers index imports closed [] ∧ ∀ a, a ∈ visited ∨ a ∈ waiting → a ∈ closed := by
  fun_induction searchFrom index imports visited waiting with
  | case1 visited => exact ⟨visited, hc, by simp⟩
  | case2 visited id waiting hv ih =>
    have hv : id ∈ visited := by simpa using hv
    obtain ⟨closed, hclosed, hsub⟩ := ih h (hc.skip hv)
    exact ⟨closed, hclosed, fun a ha => hsub a (by grind)⟩
  | case3 visited id waiting _ hl ih =>
    -- A module that is not indexed has no dependencies.
    have hsearched : Covers index imports (id :: visited) ([] ++ waiting) :=
      hc.search fun b hb => absurd hb (not_edge_of_lookup hl b)
    obtain ⟨closed, hclosed, hsub⟩ := ih h hsearched
    exact ⟨closed, hclosed, fun a ha => hsub a (by grind)⟩
  | case4 => cases h
  | case5 visited id waiting _ targets hl hnone ih =>
    obtain ⟨closed, hclosed, hsub⟩ := ih h <| hc.search fun b hb => by
      obtain ⟨edge, hedge, rfl⟩ := (edge_of_lookup hl).1 hb
      exact ⟨by simpa using List.find?_eq_none.1 hnone edge hedge, List.mem_map_of_mem hedge⟩
    exact ⟨closed, hclosed, fun a ha => hsub a (by grind)⟩

/-- All that lies below a closed list is in it and does not supply the imports. -/
theorem Covers.below {closed : List String} (hc : Covers index imports closed []) {a b : String}
    (ha : a ∈ closed) (h : index.Below a b) : b ∈ closed ∧ index.supplies imports b = false := by
  have hstep : ∀ c ∈ closed, ∀ d, index.Edge c d →
      d ∈ closed ∧ index.supplies imports d = false := by
    intro c hcc d hcd
    obtain ⟨hs, hd⟩ := hc c hcc d hcd
    exact ⟨hd.resolve_right (List.not_mem_nil), hs⟩
  induction h with
  | single hab => exact hstep _ ha _ hab
  | tail _ hbc ih => exact hstep _ ih.1 _ hbc

/-- **If nothing is found, nothing below the start supplies the imports.** -/
theorem findSupplier_complete {start : String} (h : index.findSupplier imports start = none)
    {r : String} (hr : index.Below start r) : index.supplies imports r = false := by
  obtain ⟨closed, hclosed, hsub⟩ :=
    searchFrom_closed h fun _ ha => absurd ha List.not_mem_nil
  exact (hclosed.below (hsub start (Or.inr (List.mem_singleton_self start))) hr).2

/-- Something is found exactly where something below the start supplies the imports. -/
theorem findSupplier_isSome_iff {start : String} :
    (index.findSupplier imports start).isSome ↔
      ∃ r, index.Below start r ∧ index.supplies imports r = true := by
  constructor
  · intro h
    obtain ⟨r, hr⟩ := Option.isSome_iff_exists.1 h
    exact ⟨r, findSupplier_sound hr⟩
  · rintro ⟨r, hr, hs⟩
    cases h : index.findSupplier imports start with
    | some _ => rfl
    | none => rw [findSupplier_complete h hr] at hs; cases hs

end DependencyLint.ModuleIndex
