import DependencyLint.Proofs.Supplier
import Mathlib.Data.Set.Finite.List

/-!
# The guard of the search

The search for a supplier never searches a module twice. The recursion that it stands for has no such
guard (`unguarded`): a module yields the first of its dependencies that supplies the imports, and if
there is none, the first result that one of its dependencies yields. Where no module lies below
itself, this recursion ends, and a module that several others depend on is searched again for each
of them.

**Theorem (`findSupplier_eq_unguarded`).** On every index without cycles the guarded search gives
exactly the result of the recursion without a guard.

The search keeps a stack of waiting modules, so the claim about a whole stack is that the search gives
the first result that a waiting module yields. What makes the guard harmless is the invariant `Settled`:
a module that has been searched yields nothing, unless one of the modules on top of the stack does,
and these lie below it. When a searched module comes up again, nothing on top of it is below it,
because it would then be below itself. So it yields nothing, and passing it over loses nothing.
-/

namespace DependencyLint.ModuleIndex

open Relation

variable {index : ModuleIndex} {imports : List String}

/-! ## Indexes without cycles -/

/-- No module lies below itself. -/
def Acyclic (index : ModuleIndex) : Prop := ∀ id, ¬index.Below id id

theorem mem_keys_of_edge {a b : String} (h : index.Edge a b) : a ∈ index.edges.map (·.1) := by
  by_contra hmem
  refine not_edge_of_lookup ?_ b h
  rw [List.lookup_eq_none_iff]
  intro entry hentry
  have hne : a ≠ entry.1 := fun heq => hmem (heq ▸ List.mem_map_of_mem hentry)
  simpa using hne

/-- A module without an entry of its own has nothing below it. -/
theorem acc_of_not_mem_keys {id : String} (h : id ∉ index.edges.map (·.1)) :
    Acc (fun b a => index.Edge a b) id :=
  Acc.intro id fun _ hedge => absurd (mem_keys_of_edge hedge) h

/-- Going down from module to module comes to an end, since there are only finitely many entries. -/
theorem Acyclic.wellFounded (acyclic : index.Acyclic) :
    WellFounded fun b a => index.Edge a b := by
  -- Among the ids with an entry, lying below is a strict order on a finite type.
  let Key := { id // id ∈ index.edges.map (·.1) }
  have : Finite Key := (List.finite_toSet _).to_subtype
  have : IsTrans Key fun b a => index.Below a.1 b.1 := ⟨fun _ _ _ hab hbc => hbc.trans hab⟩
  have : Std.Irrefl fun b a : Key => index.Below a.1 b.1 := ⟨fun a => acyclic a.1⟩
  have hkeys : WellFounded fun b a : Key => index.Below a.1 b.1 :=
    Finite.wellFounded_of_trans_of_irrefl _
  have hacc : ∀ a : Key, Acc (fun b a => index.Edge a b) a.1 := by
    intro a
    induction a using hkeys.induction with
    | _ a ih =>
      refine Acc.intro a.1 fun b hab => ?_
      by_cases hb : b ∈ index.edges.map (·.1)
      · exact ih ⟨b, hb⟩ (.single hab)
      · exact acc_of_not_mem_keys hb
  refine ⟨fun id => ?_⟩
  by_cases hid : id ∈ index.edges.map (·.1)
  · exact hacc ⟨id, hid⟩
  · exact acc_of_not_mem_keys hid

/-- Dependencies that only lead to lower ranks form no cycle. -/
theorem acyclic_of_rank (rank : String → Nat)
    (h : ∀ entry ∈ index.edges, ∀ edge ∈ entry.2, rank edge.id < rank entry.1) : index.Acyclic := by
  have hedge : ∀ a b, index.Edge a b → rank b < rank a := by
    rintro a b ⟨edge, hmem, rfl⟩
    cases hl : index.edges.lookup a with
    | none => simp [dependencies, hl] at hmem
    | some targets =>
      have hentry : (a, targets) ∈ index.edges := by
        obtain ⟨front, back, heq, -⟩ := List.lookup_eq_some_iff.1 hl
        simp [heq]
      exact h _ hentry edge (by simpa [dependencies, hl] using hmem)
  have hbelow : ∀ a b, index.Below a b → rank b < rank a := by
    intro a b hab
    induction hab with
    | single hab => exact hedge _ _ hab
    | tail _ hbc ih => exact (hedge _ _ hbc).trans ih
  exact fun id hid => absurd (hbelow id id hid) (Nat.lt_irrefl _)

/-! ## The recursion without a guard -/

/-- What a module yields: the first of its dependencies that supplies the imports, or else the first
result that one of its dependencies yields. A module that is not indexed yields nothing. -/
def unguarded (index : ModuleIndex) (imports : List String) (acyclic : index.Acyclic)
    (id : String) : Option String :=
  match _found : index.edges.lookup id with
  | none => none
  | some targets =>
    match targets.find? fun edge => index.supplies imports edge.id with
    | some supplier => some supplier.id
    | none => targets.attach.findSome? fun edge => index.unguarded imports acyclic edge.1.id
termination_by acyclic.wellFounded.wrap id
decreasing_by exact (edge_of_lookup _found).2 ⟨edge.1, edge.2, rfl⟩

theorem unguarded_of_none {acyclic : index.Acyclic} {id : String}
    (h : index.edges.lookup id = none) : index.unguarded imports acyclic id = none := by
  rw [unguarded]
  split
  next => rfl
  next targets hl => rw [h] at hl; cases hl

theorem unguarded_of_some {acyclic : index.Acyclic} {id : String} {targets : List ModuleEdge}
    (h : index.edges.lookup id = some targets) :
    index.unguarded imports acyclic id =
      match targets.find? fun edge => index.supplies imports edge.id with
      | some supplier => some supplier.id
      | none => (targets.map (·.id)).findSome? (index.unguarded imports acyclic) := by
  rw [unguarded]
  split
  next hl => rw [h] at hl; cases hl
  next found hl =>
    rw [h] at hl
    cases hl
    cases targets.find? fun edge => index.supplies imports edge.id with
    | some supplier => rfl
    | none =>
      conv_rhs => rw [← List.attach_map_subtype_val targets, List.map_map, List.findSome?_map]
      rfl

theorem unguarded_of_find?_eq_none {acyclic : index.Acyclic} {id : String}
    {targets : List ModuleEdge} (h : index.edges.lookup id = some targets)
    (hnone : (targets.find? fun edge => index.supplies imports edge.id) = none) :
    index.unguarded imports acyclic id =
      (targets.map (·.id)).findSome? (index.unguarded imports acyclic) := by
  rw [unguarded_of_some h, hnone]

/-! ## The guarded search on a stack -/

/-- A searched module yields nothing, unless one of the modules on top of the stack does, all of which
lie below it. -/
def Settled (index : ModuleIndex) (imports : List String) (acyclic : index.Acyclic)
    (visited waiting : List String) : Prop :=
  ∀ a ∈ visited, ∃ top rest, waiting = top ++ rest ∧ (∀ b ∈ top, index.Below a b) ∧
    (top.findSome? (index.unguarded imports acyclic) = none →
      index.unguarded imports acyclic a = none)

variable {acyclic : index.Acyclic}

/-- A searched module that comes up again yields nothing. -/
theorem Settled.unguarded_eq_none {visited waiting : List String} {id : String}
    (h : Settled index imports acyclic visited (id :: waiting)) (hv : id ∈ visited) :
    index.unguarded imports acyclic id = none := by
  obtain ⟨top, rest, hstack, hbelow, hnothing⟩ := h id hv
  cases top with
  | nil => exact hnothing rfl
  | cons b top =>
    obtain ⟨rfl, -⟩ := List.cons.inj hstack
    exact absurd (hbelow id List.mem_cons_self) (acyclic id)

/-- The module on top of the stack makes way for the modules `below` it that yield what it yields. -/
theorem Settled.replace {visited waiting : List String} {id : String}
    (h : Settled index imports acyclic visited (id :: waiting)) (below : List String)
    (hbelow : ∀ b ∈ below, index.Below id b)
    (hyield : below.findSome? (index.unguarded imports acyclic) =
      index.unguarded imports acyclic id) :
    Settled index imports acyclic visited (below ++ waiting) := by
  intro a ha
  obtain ⟨top, rest, hstack, htop, hnothing⟩ := h a ha
  cases top with
  | nil => exact ⟨[], below ++ waiting, rfl, by simp, hnothing⟩
  | cons b top =>
    obtain ⟨rfl, rfl⟩ := List.cons.inj hstack
    refine ⟨below ++ top, rest, by simp, fun c hc => ?_, fun hnone => hnothing ?_⟩
    · rcases List.mem_append.1 hc with hc | hc
      · exact (htop id List.mem_cons_self).trans (hbelow c hc)
      · exact htop c (List.mem_cons_of_mem id hc)
    · rw [List.findSome?_append, hyield] at hnone
      rw [List.findSome?_cons]
      cases hid : index.unguarded imports acyclic id <;> simp_all

/-- A module is searched: what it yields is what the modules on top of the stack yield. -/
theorem Settled.search {visited waiting : List String} {id : String} (below : List String)
    (h : Settled index imports acyclic visited (below ++ waiting))
    (hbelow : ∀ b ∈ below, index.Below id b)
    (hyield : below.findSome? (index.unguarded imports acyclic) =
      index.unguarded imports acyclic id) :
    Settled index imports acyclic (id :: visited) (below ++ waiting) := by
  intro a ha
  rcases List.mem_cons.1 ha with rfl | ha
  · exact ⟨below, waiting, rfl, hbelow, fun hnone => hyield ▸ hnone⟩
  · exact h a ha

/-- The guarded search gives the first result that a waiting module yields. -/
theorem searchFrom_eq_findSome? {visited waiting : List String}
    (h : Settled index imports acyclic visited waiting) :
    searchFrom index imports visited waiting =
      waiting.findSome? (index.unguarded imports acyclic) := by
  fun_induction searchFrom index imports visited waiting with
  | case1 => rfl
  | case2 visited id waiting hv ih =>
    have hid := h.unguarded_eq_none (by simpa using hv)
    rw [ih (h.replace [] (by simp) hid.symm), List.findSome?_cons, hid]
  | case3 visited id waiting _ hl ih =>
    have hid : index.unguarded imports acyclic id = none := unguarded_of_none hl
    have hnext := h.replace [] (by simp) hid.symm
    rw [ih (Settled.search [] hnext (by simp) hid.symm), List.findSome?_cons, hid]
  | case4 visited id waiting _ targets hl edge hfind =>
    rw [List.findSome?_cons, unguarded_of_some hl, hfind]
  | case5 visited id waiting _ targets hl hnone ih =>
    have hyield : (targets.map (·.id)).findSome? (index.unguarded imports acyclic) =
        index.unguarded imports acyclic id := (unguarded_of_find?_eq_none hl hnone).symm
    have hbelow : ∀ b ∈ targets.map (·.id), index.Below id b := by
      intro b hb
      obtain ⟨edge, hedge, rfl⟩ := List.mem_map.1 hb
      exact .single ((edge_of_lookup hl).2 ⟨edge, hedge, rfl⟩)
    have hnext := h.replace _ hbelow hyield
    rw [ih (Settled.search _ hnext hbelow hyield), List.findSome?_append, hyield,
      List.findSome?_cons]
    cases index.unguarded imports acyclic id <;> rfl

/-- **On an index without cycles the guard of the search changes nothing.** -/
theorem findSupplier_eq_unguarded (acyclic : index.Acyclic) (imports : List String)
    (start : String) :
    index.findSupplier imports start = index.unguarded imports acyclic start := by
  have hsettled : Settled index imports acyclic [] [start] := fun _ ha => absurd ha List.not_mem_nil
  rw [findSupplier, searchFrom_eq_findSome? hsettled, List.findSome?_singleton]

/-! ## A module on two ways down -/

namespace Diamond

def entry (id : String) (targets : List String) : String × List ModuleEdge :=
  (id, targets.map fun target => ⟨target, ⟨target⟩⟩)

/-- Both `left` and `right` lead to `shared`, and only behind the second of these ways, in a module
without an entry, lies what is looked for. -/
def sample : ModuleIndex where
  edges := [entry "app" ["left", "right"], entry "left" ["shared"], entry "right" ["shared", "box"],
    entry "shared" ["deep"], entry "deep" [], entry "box" ["deep", "tool"]]
  packages := [("tool", ["tool"]), ("app", ["app"])]

theorem acyclic_sample : sample.Acyclic :=
  acyclic_of_rank (fun id => ["tool", "deep", "box", "shared", "right", "left", "app"].idxOf id)
    (by decide)

/-- A class of `tool` is looked for, and one of the module at the top. -/
def wanted : List String := ["tool.Hammer", "app.Main"]

/-- An entry without a supplier yields what its targets yield. -/
theorem unguarded_entry {id : String} (targets : List String)
    (h : sample.edges.lookup id = some (entry id targets).2)
    (hnone : ((entry id targets).2.find? fun edge => sample.supplies wanted edge.id) = none) :
    sample.unguarded wanted acyclic_sample id =
      targets.findSome? (sample.unguarded wanted acyclic_sample) := by
  rw [unguarded_of_find?_eq_none h hnone, entry, List.map_map]
  exact congrArg (List.findSome? _) (List.map_id targets)

end Diamond

open Diamond in
theorem diamond_searched_alike :
    sample.findSupplier wanted "app" = some "tool" ∧
      sample.unguarded wanted acyclic_sample "app" = some "tool" := by
  -- the recursion comes to `shared` twice, and what is found lies behind the second time
  have hdeep : sample.unguarded wanted acyclic_sample "deep" = none :=
    unguarded_entry [] rfl rfl
  have hshared : sample.unguarded wanted acyclic_sample "shared" = none := by
    rw [unguarded_entry ["deep"] rfl (by decide), List.findSome?_singleton, hdeep]
  have hleft : sample.unguarded wanted acyclic_sample "left" = none := by
    rw [unguarded_entry ["shared"] rfl (by decide), List.findSome?_singleton, hshared]
  have hbox : sample.unguarded wanted acyclic_sample "box" = some "tool" :=
    (unguarded_of_some
      (rfl : sample.edges.lookup "box" = some (entry "box" ["deep", "tool"]).2)).trans rfl
  have hright : sample.unguarded wanted acyclic_sample "right" = some "tool" := by
    rw [unguarded_entry ["shared", "box"] rfl (by decide), List.findSome?_cons, hshared]
    rw [List.findSome?_singleton, hbox]
  have happ : sample.unguarded wanted acyclic_sample "app" = some "tool" := by
    rw [unguarded_entry ["left", "right"] rfl (by decide), List.findSome?_cons, hleft]
    rw [List.findSome?_singleton, hright]
  exact ⟨(findSupplier_eq_unguarded acyclic_sample _ _).trans happ, happ⟩

end DependencyLint.ModuleIndex
