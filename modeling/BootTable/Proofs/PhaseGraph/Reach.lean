import BootTable.PhaseGraph.Cycle
import BootTable.Proofs.PhaseGraph.Edges
import Mathlib.Data.List.Perm.Subperm
import Mathlib.Logic.Relation

/-!
# BootTable — what the search for circles reaches

The search goes from a component to what follows it, then to what follows that, until nothing new
is found. It looks only at the followers of what was found last, and it may take no more steps than
there are components. That it still finds everything is one invariant.

* **`Explores`**: what is reached can be reached, and only what was found last may have followers
  that are missing. **`Explores.step`** is what a step preserves.
* **`mem_closure_iff`**: the run. If the steps are used up, everything there is has been reached.
* **`PhaseGraph.mem_allDependents_iff`**, **`PhaseGraph.mem_allPrerequisites_iff`**,
  **`PhaseGraph.onCycle_iff`**: the same of a graph.
-/

namespace BootTable

open Relation

section

variable {α : Type} [DecidableEq α] {next : α → List α} {origin : α} {frontier reached : List α}

theorem mem_newlyReached {a : α} :
    a ∈ newlyReached next frontier reached ↔ (∃ b ∈ frontier, a ∈ next b) ∧ a ∉ reached := by
  simp [newlyReached]

theorem nodup_newlyReached : (newlyReached next frontier reached).Nodup :=
  (nodup_firstOccurrences _).sublist List.filter_sublist

/-- The invariant of a search from an origin. -/
structure Explores (next : α → List α) (origin : α) (frontier reached : List α) : Prop where
  /-- Nothing is reached twice. -/
  nodup : reached.Nodup
  /-- What is reached follows the origin, directly or through others. -/
  way : ∀ a ∈ reached, TransGen (fun a b => b ∈ next a) origin a
  frontier_subset : frontier ⊆ reached
  origin_subset : next origin ⊆ reached
  /-- What follows something that was not found last is reached already. -/
  complete : ∀ a ∈ reached, a ∉ frontier → next a ⊆ reached

namespace Explores

omit [DecidableEq α] in
theorem start (hnodup : (next origin).Nodup) :
    Explores next origin (next origin) (next origin) where
  nodup := hnodup
  way _ ha := .single ha
  frontier_subset := List.Subset.refl _
  origin_subset := List.Subset.refl _
  complete _ ha hnew := absurd ha hnew

variable (h : Explores next origin frontier reached)

include h

theorem step : Explores next origin (newlyReached next frontier reached)
    (reached ++ newlyReached next frontier reached) where
  nodup := by
    have hdisjoint : ∀ a ∈ reached, ∀ b ∈ newlyReached next frontier reached, a ≠ b := by
      intro a ha b hb hab
      have hnew : b ∉ reached := (mem_newlyReached.mp hb).2
      exact hnew (hab ▸ ha)
    exact List.nodup_append.mpr ⟨h.nodup, nodup_newlyReached, hdisjoint⟩
  way a ha := by
    rcases List.mem_append.mp ha with hold | hnew
    · exact h.way a hold
    · obtain ⟨⟨b, hb, hfollows⟩, -⟩ := mem_newlyReached.mp hnew
      have hway : TransGen (fun a b => b ∈ next a) origin b := h.way b (h.frontier_subset hb)
      exact hway.tail hfollows
  frontier_subset := List.subset_append_right _ _
  origin_subset := List.subset_append_of_subset_left _ h.origin_subset
  complete a ha hold b hfollows := by
    have hreached : a ∈ reached := (List.mem_append.mp ha).resolve_right hold
    by_cases hb : b ∈ reached
    · exact List.mem_append_left _ hb
    -- A follower that is missing is that of something that was found last, so it is found now.
    · have hfrontier : a ∈ frontier := by
        by_contra hnot
        exact hb (h.complete a hreached hnot hfollows)
      exact List.mem_append_right _ (mem_newlyReached.mpr ⟨⟨a, hfrontier, hfollows⟩, hb⟩)

theorem mem_iff_of_closed (hclosed : ∀ a ∈ frontier, next a ⊆ reached) (b : α) :
    b ∈ reached ↔ TransGen (fun a b => b ∈ next a) origin b := by
  refine ⟨h.way b, fun hway => ?_⟩
  have hfollowers : ∀ a ∈ reached, next a ⊆ reached := by
    intro a ha
    by_cases hfrontier : a ∈ frontier
    · exact hclosed a hfrontier
    · exact h.complete a ha hfrontier
  induction hway with
  | single hedge => exact h.origin_subset hedge
  | tail _ hedge ih => exact hfollowers _ ih hedge

omit [DecidableEq α] in
/-- What is reached is among the nodes that the followers are taken from. -/
theorem reached_subset {nodes : List α} (hnodes : ∀ a, next a ⊆ nodes) : reached ⊆ nodes := by
  intro a ha
  obtain ⟨b, -, hedge⟩ := TransGen.tail'_iff.mp (h.way a ha)
  exact hnodes b hedge

omit [DecidableEq α] in
/-- As much is reached as there are nodes only if all of them are. -/
theorem subset_reached {nodes : List α} (hnodes : ∀ a, next a ⊆ nodes)
    (hlength : nodes.length ≤ reached.length) : nodes ⊆ reached := by
  have hsubperm : reached.Subperm nodes := h.nodup.subperm (h.reached_subset hnodes)
  exact (hsubperm.perm_of_length_le hlength).symm.subset

end Explores

/-- A search that may take as many steps as there are nodes reaches everything that follows its
origin, directly or through others. -/
theorem mem_closure_iff {nodes : List α} (hnodes : ∀ a, next a ⊆ nodes) (steps : Nat)
    (h : Explores next origin frontier reached)
    (hsteps : nodes.length ≤ reached.length + steps) (b : α) :
    b ∈ closure next steps frontier reached ↔ TransGen (fun a b => b ∈ next a) origin b := by
  induction steps generalizing frontier reached with
  | zero =>
    have hall : nodes ⊆ reached := h.subset_reached hnodes hsteps
    exact h.mem_iff_of_closed (fun a _ => List.Subset.trans (hnodes a) hall) b
  | succ steps ih =>
    unfold closure
    cases hnew : newlyReached next frontier reached with
    | nil =>
      refine h.mem_iff_of_closed (fun a ha c hfollows => ?_) b
      by_contra hmissing
      have hfound : c ∈ newlyReached next frontier reached :=
        mem_newlyReached.mpr ⟨⟨a, ha, hfollows⟩, hmissing⟩
      rw [hnew] at hfound
      exact List.not_mem_nil hfound
    | cons first others =>
      have hstep := h.step
      rw [hnew] at hstep
      refine ih hstep ?_
      rw [List.length_append, List.length_cons]
      omega

end

namespace PhaseGraph

variable {graph : PhaseGraph} (hgraph : graph.WellFormed)

include hgraph

theorem mem_allDependents_iff {provider consumer : ComponentId} :
    consumer ∈ graph.allDependents provider ↔ TransGen graph.Precedes provider consumer := by
  have hnodes (id : ComponentId) : graph.dependents id ⊆ graph.nodes :=
    (hgraph.dependents_sublist id).subset
  have hstart := Explores.start (hgraph.nodup_dependents provider)
  have hrelation : (fun a b => b ∈ graph.dependents a) = graph.Precedes := by
    funext a b
    exact propext mem_dependents
  unfold allDependents reachedFrom
  rw [mem_closure_iff hnodes _ hstart (Nat.le_add_left _ _), hrelation]

theorem mem_allPrerequisites_iff {provider consumer : ComponentId} :
    provider ∈ graph.allPrerequisites consumer ↔ TransGen graph.Precedes provider consumer := by
  have hnodes (id : ComponentId) : graph.prerequisites id ⊆ graph.nodes := fun _ hmem =>
    hgraph.provider_mem (mem_prerequisites.mp hmem)
  have hstart := Explores.start (hgraph.nodup_prerequisites consumer)
  have hrelation : (fun a b => b ∈ graph.prerequisites a) = Function.swap graph.Precedes := by
    funext a b
    exact propext mem_prerequisites
  unfold allPrerequisites reachedFrom
  rw [mem_closure_iff hnodes _ hstart (Nat.le_add_left _ _), hrelation, transGen_swap]

theorem onCycle_iff {id : ComponentId} :
    graph.onCycle id = true ↔ TransGen graph.Precedes id id := by
  unfold onCycle
  rw [decide_eq_true_eq, mem_allDependents_iff hgraph]

end PhaseGraph

end BootTable
