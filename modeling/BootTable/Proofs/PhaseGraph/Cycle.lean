import BootTable.Proofs.PhaseGraph.Reach
import BootTable.Proofs.PhaseGraph.Turns
import BootTable.Proofs.PhaseGraph.Unresolved
import BootTable.Proofs.Registry.FirstBreach
import Mathlib.Data.List.Lex
import Mathlib.Data.List.Sort

/-!
# BootTable — which circle is reported

A phase that cannot be ordered may have many circles. The one that is reported is that of the
component that was seen first, of all that lie on any: the components that wait for it and for
which it waits. It does not matter how circles are looked for: whoever divides what could not be
ordered into strongly connected parts, drops the parts that are no circles and takes the first of
the others in first-seen order finds the same one.

* **`mem_firstCycle_iff`**, **`head?_firstCycle`**: the members of the reported circle and the
  first of them.
* **`transGen_among`**: what lies on a circle could not be ordered, so a circle lies wholly among
  what could not be ordered.
* **`IsStrongPartition`**, **`exists_isStrongPartition`**, **`leastCircle_eq`**: the search through
  strongly connected parts.
* **`cycle_of_build`**: the reported circle, in terms of the registry and the index.
-/

namespace BootTable

open Relation

/-- Two components are on a common circle: each of them waits for the other one, directly or
through others. -/
def Entangled (precedes : ComponentId → ComponentId → Prop) (a b : ComponentId) : Prop :=
  TransGen precedes a b ∧ TransGen precedes b a

theorem Entangled.cyclic {precedes : ComponentId → ComponentId → Prop} {a b : ComponentId}
    (h : Entangled precedes a b) : TransGen precedes b b :=
  h.2.trans h.1

theorem Entangled.symm {precedes : ComponentId → ComponentId → Prop} {a b : ComponentId}
    (h : Entangled precedes a b) : Entangled precedes b a :=
  ⟨h.2, h.1⟩

namespace PhaseGraph

variable {graph : PhaseGraph} {ids : List ComponentId} {first : ComponentId}

/-! ## The reported circle -/

section

variable (hgraph : graph.WellFormed)
  (hfirst : IsFirst (fun id => TransGen graph.Precedes id id) ids first)

include hgraph hfirst

theorem firstCycle_eq_filter : graph.firstCycle ids =
    ids.filter fun id => id ∈ graph.allDependents first ∧ id ∈ graph.allPrerequisites first := by
  have hfound : ids.find? graph.onCycle = some first := by
    cases hfind : ids.find? graph.onCycle with
    | none =>
      have hnone : ¬graph.onCycle first = true := List.find?_eq_none.mp hfind first hfirst.mem
      exact absurd ((onCycle_iff hgraph).mpr hfirst.holds) hnone
    | some other =>
      have hother := isFirst_of_find? (fun _ => onCycle_iff hgraph) hfind
      rw [hother.unique hfirst]
  unfold firstCycle
  rw [hfound]

theorem mem_firstCycle_iff {id : ComponentId} :
    id ∈ graph.firstCycle ids ↔ id ∈ ids ∧ Entangled graph.Precedes first id := by
  rw [firstCycle_eq_filter hgraph hfirst, List.mem_filter, decide_eq_true_eq,
    mem_allDependents_iff hgraph, mem_allPrerequisites_iff hgraph]
  exact Iff.rfl

theorem firstCycle_sublist : (graph.firstCycle ids).Sublist ids := by
  rw [firstCycle_eq_filter hgraph hfirst]
  exact List.filter_sublist

/-- Whatever stands before the first component that lies on a circle is no member of it. -/
theorem head?_firstCycle : (graph.firstCycle ids).head? = some first := by
  have hmember (id : ComponentId) : id ∈ graph.firstCycle ids ↔
      id ∈ ids ∧ Entangled graph.Precedes first id := mem_firstCycle_iff hgraph hfirst
  rw [firstCycle_eq_filter hgraph hfirst] at hmember ⊢
  obtain ⟨before, after, rfl, hcyclic, hbefore⟩ := hfirst
  have hnone : (before.filter fun id => id ∈ graph.allDependents first ∧
      id ∈ graph.allPrerequisites first) = [] := by
    rw [List.filter_eq_nil_iff]
    intro id hid hkept
    have hmem := (hmember id).mp (List.mem_filter.mpr ⟨List.mem_append_left _ hid, hkept⟩)
    exact hbefore id hid hmem.2.cyclic
  have hkept := List.mem_filter.mp ((hmember first).mpr
    ⟨List.mem_append_right _ List.mem_cons_self, hcyclic, hcyclic⟩)
  rw [List.filter_append, hnone, List.nil_append, List.filter_cons, if_pos hkept.2, List.head?_cons]

end

/-! ## Circles lie among what could not be ordered -/

/-- An edge between two of some components. -/
def PrecedesAmong (graph : PhaseGraph) (ids : List ComponentId)
    (provider consumer : ComponentId) : Prop :=
  provider ∈ ids ∧ consumer ∈ ids ∧ graph.Precedes provider consumer

/-- Where the components contain all that lies on a circle, a way along a circle leads through
them alone. -/
theorem transGen_among (hall : ∀ id, TransGen graph.Precedes id id → id ∈ ids)
    {a b : ComponentId} (h : Entangled graph.Precedes a b) :
    TransGen (graph.PrecedesAmong ids) a b := by
  obtain ⟨hway, hback⟩ := h
  -- From the end of the way: with every edge the way back grows by that edge.
  induction hway using TransGen.head_induction_on with
  | single hedge =>
    have ha := hall _ (.head hedge hback)
    have hb := hall _ (hback.tail hedge)
    exact .single ⟨ha, hb, hedge⟩
  | head hedge hway ih =>
    have ha := hall _ (.head hedge (hway.trans hback))
    have hnext := hall _ ((hway.trans hback).tail hedge)
    exact .head ⟨ha, hnext, hedge⟩ (ih (hback.tail hedge))

theorem among_iff_entangled (hall : ∀ id, TransGen graph.Precedes id id → id ∈ ids)
    {a b : ComponentId} :
    ReflTransGen (graph.PrecedesAmong ids) a b ∧ ReflTransGen (graph.PrecedesAmong ids) b a ↔
      b = a ∨ Entangled graph.Precedes a b := by
  have hforget {a b : ComponentId} (hway : TransGen (graph.PrecedesAmong ids) a b) :
      TransGen graph.Precedes a b := by
    have hle : graph.PrecedesAmong ids ≤ graph.Precedes := fun _ _ hedge => hedge.2.2
    exact TransGen.mono hle a b hway
  rw [reflTransGen_iff_eq_or_transGen, reflTransGen_iff_eq_or_transGen]
  constructor
  · rintro ⟨heq | hway, hback⟩
    · exact .inl heq
    · rcases hback with heq | hback
      · exact .inl heq.symm
      · exact .inr ⟨hforget hway, hforget hback⟩
  · rintro (heq | hentangled)
    · exact ⟨.inl heq, .inl heq.symm⟩
    · exact ⟨.inr (transGen_among hall hentangled), .inr (transGen_among hall hentangled.symm)⟩

/-! ## The search through strongly connected parts -/

/-- A division of some components into the strongly connected parts of the graph that they and the
edges between them make. Parts, and members of a part, stand in any order. -/
structure IsStrongPartition (graph : PhaseGraph) (ids : List ComponentId)
    (parts : List (List ComponentId)) : Prop where
  /-- Each component is in one part, once. -/
  perm : parts.flatten.Perm ids
  mem_iff : ∀ part ∈ parts, ∀ a ∈ part, ∀ b, b ∈ part ↔
    ReflTransGen (graph.PrecedesAmong ids) a b ∧ ReflTransGen (graph.PrecedesAmong ids) b a

open Classical in
/-- The components that are strongly connected to one of them. -/
noncomputable def strongPart (graph : PhaseGraph) (ids : List ComponentId) (a : ComponentId) :
    List ComponentId :=
  ids.filter fun b =>
    ReflTransGen (graph.PrecedesAmong ids) a b ∧ ReflTransGen (graph.PrecedesAmong ids) b a

theorem mem_strongPart {a b : ComponentId} : b ∈ graph.strongPart ids a ↔ b ∈ ids ∧
    ReflTransGen (graph.PrecedesAmong ids) a b ∧ ReflTransGen (graph.PrecedesAmong ids) b a := by
  simp only [strongPart, List.mem_filter, decide_eq_true_eq]

theorem strongPart_eq_of_mem {a b : ComponentId} (h : b ∈ graph.strongPart ids a) :
    graph.strongPart ids a = graph.strongPart ids b := by
  obtain ⟨-, hab, hba⟩ := mem_strongPart.mp h
  refine List.filter_congr fun c _ => decide_eq_decide.mpr ?_
  exact ⟨fun hc => ⟨hba.trans hc.1, hc.2.trans hab⟩, fun hc => ⟨hab.trans hc.1, hc.2.trans hba⟩⟩

/-- The parts of the components, each of them once, are such a division. -/
theorem exists_isStrongPartition (hids : ids.Nodup) :
    ∃ parts, graph.IsStrongPartition ids parts := by
  have hlisted {part : List ComponentId}
      (h : part ∈ firstOccurrences (ids.map (graph.strongPart ids))) :
      ∃ a ∈ ids, graph.strongPart ids a = part := List.mem_map.mp (mem_firstOccurrences.mp h)
  refine ⟨firstOccurrences (ids.map (graph.strongPart ids)), ?perm, ?mem⟩
  case perm =>
    -- Parts with a common member are equal, so different ones are disjoint.
    have hnodup : (firstOccurrences (ids.map (graph.strongPart ids))).flatten.Nodup := by
      refine List.nodup_flatten.mpr ⟨fun part hpart => ?_, ?_⟩
      · obtain ⟨a, -, rfl⟩ := hlisted hpart
        exact hids.sublist List.filter_sublist
      · refine (nodup_firstOccurrences _).imp_of_mem fun {one two} hone htwo hne => ?_
        obtain ⟨a, -, rfl⟩ := hlisted hone
        obtain ⟨b, -, rfl⟩ := hlisted htwo
        exact fun c ha hb => hne ((strongPart_eq_of_mem ha).trans (strongPart_eq_of_mem hb).symm)
    refine (List.perm_ext_iff_of_nodup hnodup hids).mpr fun id => ?_
    rw [List.mem_flatten]
    constructor
    · rintro ⟨part, hpart, hmem⟩
      obtain ⟨a, -, rfl⟩ := hlisted hpart
      exact (mem_strongPart.mp hmem).1
    · intro hid
      exact ⟨graph.strongPart ids id, mem_firstOccurrences.mpr (List.mem_map_of_mem hid),
        mem_strongPart.mpr ⟨hid, .refl, .refl⟩⟩
  case mem =>
    intro part hpart a ha b
    obtain ⟨c, -, rfl⟩ := hlisted hpart
    rw [strongPart_eq_of_mem ha, mem_strongPart]
    refine and_iff_right_of_imp fun h => ?_
    rcases h.1.cases_tail with rfl | ⟨_, -, hedge⟩
    · exact (mem_strongPart.mp ha).1
    · exact hedge.2.1

/-- A strongly connected part is a circle if it has several members or one that waits for
itself. -/
def isCircle (graph : PhaseGraph) (part : List ComponentId) : Bool :=
  1 < part.length || part.head?.any fun id => graph.Precedes id id

/-- The places of components among the nodes, in increasing order. -/
def placesOf (graph : PhaseGraph) (part : List ComponentId) : List Nat :=
  (part.map fun id => graph.nodes.idxOf id).insertionSort (· ≤ ·)

/-- The first circle of several parts, if all of them are put in first-seen order and compared
place by place; nothing, if none of them is a circle. -/
def leastCircle (graph : PhaseGraph) (parts : List (List ComponentId)) : List ComponentId :=
  ((((parts.filter graph.isCircle).map graph.placesOf).insertionSort (· ≤ ·)).head?.getD []).filterMap
    fun place => graph.nodes[place]?

/-- The first of some lists in lexicographic order begins with no more than any other one. -/
theorem head_le_of_insertionSort {lists : List (List Nat)} {least : List Nat}
    (h : (lists.insertionSort (· ≤ ·)).head? = some least) {head : Nat} {rest : List Nat}
    (hmem : head :: rest ∈ lists) {leastHead : Nat} {leastRest : List Nat}
    (hleast : least = leastHead :: leastRest) : leastHead ≤ head := by
  have hsorted : (lists.insertionSort (· ≤ ·)).Pairwise (· ≤ ·) :=
    List.pairwise_insertionSort _ _
  obtain ⟨others, hothers⟩ := List.head?_eq_some_iff.mp h
  have hmem' : head :: rest ∈ least :: others := by
    rw [← hothers]
    exact (List.mem_insertionSort _).mpr hmem
  rw [hothers, List.pairwise_cons] at hsorted
  have hle : leastHead :: leastRest ≤ head :: rest := by
    rcases List.mem_cons.mp hmem' with heq | hin
    · exact le_of_eq (hleast.symm.trans heq.symm)
    · exact hleast ▸ hsorted.1 _ hin
  rcases lt_or_eq_of_le hle with hlt | heq
  · exact List.head_le_of_lt hlt
  · exact le_of_eq (List.cons.inj heq).1

theorem placesOf_eq_of_sublist (hgraph : graph.WellFormed) {part cycle : List ComponentId}
    (hpart : part.Nodup) (hcycle : cycle.Sublist graph.nodes)
    (hsame : ∀ id, id ∈ part ↔ id ∈ cycle) :
    graph.placesOf part = cycle.map fun id => graph.nodes.idxOf id := by
  have hperm : part.Perm cycle :=
    (List.perm_ext_iff_of_nodup hpart (hgraph.nodup_nodes.sublist hcycle)).mpr hsame
  have hplaces : (cycle.map fun id => graph.nodes.idxOf id).Pairwise (· ≤ ·) := by
    rw [List.pairwise_map]
    exact ((pairwise_idxOf_lt hgraph.nodup_nodes).sublist hcycle).imp Nat.le_of_lt
  have hsorted : (graph.placesOf part).Pairwise (· ≤ ·) := List.pairwise_insertionSort _ _
  have hpermPlaces : (graph.placesOf part).Perm (cycle.map fun id => graph.nodes.idxOf id) :=
    (List.perm_insertionSort _ _).trans (hperm.map _)
  exact hpermPlaces.eq_of_pairwise (fun a b _ _ hab hba => Nat.le_antisymm hab hba) hsorted hplaces

theorem filterMap_map_idxOf {cycle : List ComponentId} (hcycle : cycle.Sublist graph.nodes) :
    ((cycle.map fun id => graph.nodes.idxOf id).filterMap fun place => graph.nodes[place]?) =
      cycle := by
  rw [List.filterMap_map]
  have hfound : ∀ id ∈ cycle,
      ((fun place => graph.nodes[place]?) ∘ fun id => graph.nodes.idxOf id) id = some id :=
    fun id hid => List.getElem?_idxOf (hcycle.subset hid)
  exact (List.filterMap_congr hfound).trans List.filterMap_some

namespace IsStrongPartition

variable {parts : List (List ComponentId)} (h : graph.IsStrongPartition ids parts)

include h

theorem nodup_part (hids : ids.Nodup) {part : List ComponentId} (hpart : part ∈ parts) :
    part.Nodup :=
  (List.nodup_flatten.mp (h.perm.nodup_iff.mpr hids)).1 part hpart

theorem exists_part {id : ComponentId} (hid : id ∈ ids) : ∃ part ∈ parts, id ∈ part :=
  List.mem_flatten.mp (h.perm.mem_iff.mpr hid)

variable (hall : ∀ id, TransGen graph.Precedes id id → id ∈ ids)

include hall

theorem mem_iff_entangled {part : List ComponentId} (hpart : part ∈ parts) {a : ComponentId}
    (ha : a ∈ part) (b : ComponentId) : b ∈ part ↔ b = a ∨ Entangled graph.Precedes a b := by
  rw [h.mem_iff part hpart a ha b, among_iff_entangled hall]

theorem isCircle_of_cyclic {part : List ComponentId} (hpart : part ∈ parts) {a : ComponentId}
    (ha : a ∈ part) (hcyclic : TransGen graph.Precedes a a) : graph.isCircle part = true := by
  unfold isCircle
  by_cases hlength : 1 < part.length
  · simp [hlength]
  -- The part has one member, so the next component on its circle is the member itself.
  · have hpos : 0 < part.length := List.length_pos_of_mem ha
    obtain ⟨b, hb⟩ := List.length_eq_one_iff.mp (show part.length = 1 by omega)
    have hab : a = b := List.mem_singleton.mp (hb ▸ ha)
    obtain ⟨next, hedge, hback⟩ := TransGen.head'_iff.mp hcyclic
    have hnext : next ∈ part := by
      rw [h.mem_iff_entangled hall hpart ha]
      rcases reflTransGen_iff_eq_or_transGen.mp hback with heq | hback
      · exact .inl heq.symm
      · exact .inr ⟨.single hedge, hback⟩
    have hnextb : next = b := List.mem_singleton.mp (hb ▸ hnext)
    have hself : graph.Precedes b b := by
      rw [hab, hnextb] at hedge
      exact hedge
    simp [hb, hself]

theorem cyclic_of_isCircle (hids : ids.Nodup) {part : List ComponentId} (hpart : part ∈ parts)
    (hcircle : graph.isCircle part = true) : ∃ a ∈ part, TransGen graph.Precedes a a := by
  have hnodup : part.Nodup := h.nodup_part hids hpart
  unfold isCircle at hcircle
  match part with
  | [] => simp at hcircle
  | [a] =>
    have hself : graph.Precedes a a := by simpa using hcircle
    exact ⟨a, List.mem_cons_self, .single hself⟩
  | a :: b :: others =>
    have hb : b ∈ a :: b :: others := by simp
    have hne : b ≠ a := by
      intro heq
      rw [heq, List.nodup_cons] at hnodup
      exact hnodup.1 List.mem_cons_self
    have hentangled := ((h.mem_iff_entangled hall hpart List.mem_cons_self b).mp hb).resolve_left hne
    exact ⟨b, hb, hentangled.cyclic⟩

/-- A circle that begins no later than the first component that lies on any is the circle of that
component. -/
theorem first_mem_of_le (hids : ids.Sublist graph.nodes) (hgraph : graph.WellFormed)
    (hfirst : IsFirst (fun id => TransGen graph.Precedes id id) ids first)
    {part : List ComponentId} (hpart : part ∈ parts) (hcircle : graph.isCircle part = true)
    (hle : ∀ place ∈ (graph.placesOf part).head?, place ≤ graph.nodes.idxOf first) :
    first ∈ part := by
  have hordered : ids.Pairwise fun a b => graph.nodes.idxOf a < graph.nodes.idxOf b :=
    (pairwise_idxOf_lt hgraph.nodup_nodes).sublist hids
  obtain ⟨a, ha, hcyclic⟩ :=
    h.cyclic_of_isCircle hall (hgraph.nodup_nodes.sublist hids) hpart hcircle
  have hlength : (graph.placesOf part).length = part.length := by
    rw [placesOf, List.length_insertionSort, List.length_map]
  obtain ⟨place, rest, hplaces⟩ : ∃ place rest, graph.placesOf part = place :: rest := by
    refine List.exists_cons_of_length_pos ?_
    rw [hlength]
    exact List.length_pos_of_mem ha
  have hplace : place ∈ graph.placesOf part := hplaces ▸ List.mem_cons_self
  obtain ⟨c, hc, rfl⟩ := List.mem_map.mp ((List.mem_insertionSort _).mp hplace)
  have hcyclicc : TransGen graph.Precedes c c := by
    rcases (h.mem_iff_entangled hall hpart ha c).mp hc with rfl | hentangled
    · exact hcyclic
    · exact hentangled.cyclic
  rcases hfirst.eq_or_rel hordered (hall c hcyclicc) hcyclicc with rfl | hlt
  · exact hc
  · have hnot := hle _ (by rw [hplaces]; rfl)
    exact absurd hlt (Nat.not_lt.mpr hnot)

end IsStrongPartition

/-- However the components are divided into strongly connected parts, the search through these
finds the circle of the first component that lies on any. -/
theorem leastCircle_eq (hgraph : graph.WellFormed) (hids : ids.Sublist graph.nodes)
    (hall : ∀ id, TransGen graph.Precedes id id → id ∈ ids)
    (hfirst : IsFirst (fun id => TransGen graph.Precedes id id) ids first)
    {parts : List (List ComponentId)} (h : graph.IsStrongPartition ids parts) :
    graph.leastCircle parts = graph.firstCycle ids := by
  have hnodup : ids.Nodup := hgraph.nodup_nodes.sublist hids
  have hcycle : (graph.firstCycle ids).Sublist graph.nodes :=
    (firstCycle_sublist hgraph hfirst).trans hids
  obtain ⟨rest, hrest⟩ := List.head?_eq_some_iff.mp (head?_firstCycle hgraph hfirst)
  -- A part with the first component has the places of the reported circle.
  have hplaces {part : List ComponentId} (hpart : part ∈ parts) (hmem : first ∈ part) :
      graph.placesOf part = (graph.firstCycle ids).map fun id => graph.nodes.idxOf id := by
    refine placesOf_eq_of_sublist hgraph (h.nodup_part hnodup hpart) hcycle fun id => ?_
    rw [h.mem_iff_entangled hall hpart hmem, mem_firstCycle_iff hgraph hfirst]
    constructor
    · rintro (rfl | hentangled)
      · exact ⟨hfirst.mem, hfirst.holds, hfirst.holds⟩
      · exact ⟨hall id hentangled.cyclic, hentangled⟩
    · exact fun hid => .inr hid.2
  obtain ⟨own, hown, hmem⟩ := h.exists_part hfirst.mem
  have hcircle := h.isCircle_of_cyclic hall hown hmem hfirst.holds
  have hlisted : graph.placesOf own ∈ (parts.filter graph.isCircle).map graph.placesOf :=
    List.mem_map_of_mem (List.mem_filter.mpr ⟨hown, hcircle⟩)
  unfold leastCircle
  cases hleast : (((parts.filter graph.isCircle).map graph.placesOf).insertionSort
      (· ≤ ·)).head? with
  | none =>
    have hnil := List.head?_eq_none_iff.mp hleast
    have hmem' := (List.mem_insertionSort (· ≤ ·)).mpr hlisted
    rw [hnil] at hmem'
    exact absurd hmem' List.not_mem_nil
  | some least =>
    have hin := (List.mem_insertionSort (· ≤ ·)).mp (List.mem_of_mem_head? hleast)
    obtain ⟨part, hpart, rfl⟩ := List.mem_map.mp hin
    obtain ⟨hpart, hcircle⟩ := List.mem_filter.mp hpart
    have hfirstPart : first ∈ part := by
      refine h.first_mem_of_le hall hids hgraph hfirst hpart hcircle fun place hplace => ?_
      obtain ⟨others, hothers⟩ := List.head?_eq_some_iff.mp hplace
      rw [hplaces hown hmem, hrest, List.map_cons] at hlisted
      exact head_le_of_insertionSort hleast hlisted hothers
    rw [Option.getD_some, hplaces hpart hfirstPart, filterMap_map_idxOf hcycle]

/-! ## Graphs that were built -/

/-- Of the components of a phase that cannot be ordered, the first one that lies on a circle decides
which circle is reported: that of the components that it waits for and that wait for it. The
reported circle starts with that component, against which the error is reported, lies among what is
unresolved and has no member that only waits for a circle. -/
theorem cycle_of_build {registry : Registry} {index : CapabilityIndex} {phase : Phase}
    (hbuild : (build registry index phase).result = .ok graph) {cause : PlanError}
    (hsort : graph.sort = .error cause) :
    ∃ first cycle unresolved, cause = .dependencyCycle phase cycle unresolved ∧
      IsFirst (fun id => TransGen (registry.IsPrerequisiteIn index phase) id id)
        ((registry.inPhase phase).map Component.id) first ∧
      cycle.Sublist registry.ids ∧
      (∀ id, id ∈ cycle ↔ Entangled (registry.IsPrerequisiteIn index phase) first id) ∧
      cycle.head? = some first ∧ cause.component? = some first ∧
      cycle.Sublist unresolved ∧
      (∀ id ∈ cycle, TransGen (registry.IsPrerequisiteIn index phase) id id) ∧
      (∃ parts, graph.IsStrongPartition unresolved parts) ∧
      ∀ parts, graph.IsStrongPartition unresolved parts → graph.leastCircle parts = cycle := by
  have hgraph := wellFormed_of_build hbuild
  have hprecedes : graph.Precedes = registry.IsPrerequisiteIn index phase := by
    funext provider consumer
    exact propext (precedes_of_build_iff hbuild)
  rw [← hprecedes, ← nodes_of_build hbuild]
  obtain ⟨hcyclic, rfl⟩ := (sort_eq_error_iff hgraph).mp hsort
  have hsub : (graph.unresolved graph.finalSorting).Sublist graph.nodes := List.filter_sublist
  have hall (id : ComponentId) (hid : TransGen graph.Precedes id id) :
      id ∈ graph.unresolved graph.finalSorting :=
    (mem_unresolved_iff_behind_cycle hgraph).mpr ⟨id, hid, .refl⟩
  obtain ⟨first, hfirst⟩ : ∃ first, IsFirst (fun id => TransGen graph.Precedes id id)
      (graph.unresolved graph.finalSorting) first := by
    unfold Acyclic at hcyclic
    push Not at hcyclic
    obtain ⟨id, hid⟩ := hcyclic
    exact exists_isFirst (hall id hid) hid
  have hmember (id : ComponentId) : id ∈ graph.firstCycle (graph.unresolved graph.finalSorting) ↔
      Entangled graph.Precedes first id := by
    rw [mem_firstCycle_iff hgraph hfirst]
    exact and_iff_right_of_imp fun hentangled => hall id hentangled.cyclic
  have hhead := head?_firstCycle hgraph hfirst
  have hcycle := firstCycle_sublist hgraph hfirst
  have hnodes : IsFirst (fun id => TransGen graph.Precedes id id) graph.nodes first := by
    refine (isFirst_filter_iff fun id hid => ?_).mp hfirst
    exact (List.mem_filter.mp (hall id hid)).2
  refine ⟨first, _, _, by rw [phase_of_build hbuild], hnodes,
    (hcycle.trans hsub).trans (nodes_sublist_ids hbuild), hmember, hhead, hhead, hcycle,
    fun id hid => ((hmember id).mp hid).cyclic,
    exists_isStrongPartition (hgraph.nodup_nodes.sublist hsub), fun parts hparts => ?_⟩
  exact leastCircle_eq hgraph hsub hall hfirst hparts

theorem cycle_of_build_knotted :
    knotted.sort = .error (.dependencyCycle .coreDevices [⟨"bus"⟩, ⟨"pic"⟩]
        [⟨"disk"⟩, ⟨"bus"⟩, ⟨"pic"⟩, ⟨"echo"⟩]) ∧
      Entangled (Registry.knotted.IsPrerequisiteIn ⟨[(⟨"irq"⟩, [⟨"pic"⟩])]⟩ .coreDevices)
        ⟨"bus"⟩ ⟨"pic"⟩ ∧
      ¬Entangled (Registry.knotted.IsPrerequisiteIn ⟨[(⟨"irq"⟩, [⟨"pic"⟩])]⟩ .coreDevices)
        ⟨"bus"⟩ ⟨"disk"⟩ ∧
      ∃ parts, knotted.IsStrongPartition [⟨"disk"⟩, ⟨"bus"⟩, ⟨"pic"⟩, ⟨"echo"⟩] parts ∧
        knotted.leastCircle parts = [⟨"bus"⟩, ⟨"pic"⟩] := by
  have hbuild : (build .knotted ⟨[(⟨"irq"⟩, [⟨"pic"⟩])]⟩ .coreDevices).result = .ok knotted := by
    decide
  have herror : knotted.sort = .error (.dependencyCycle .coreDevices [⟨"bus"⟩, ⟨"pic"⟩]
      [⟨"disk"⟩, ⟨"bus"⟩, ⟨"pic"⟩, ⟨"echo"⟩]) := by
    decide
  obtain ⟨first, cycle, unresolved, hcause, -, -, hmember, hhead, -, -, -, ⟨parts, hparts⟩, hleast⟩ :=
    cycle_of_build hbuild herror
  cases hcause
  cases hhead
  exact ⟨herror, (hmember _).mp (by decide), mt (hmember _).mpr (by decide), parts, hparts,
    hleast parts hparts⟩

end PhaseGraph

end BootTable
