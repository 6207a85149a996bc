import BootTable.Proofs.Registry.FirstBreach

/-!
# BootTable — which capability is provided too late

Whether capabilities are provided in time is checked on marks that were collected while the
components passed by: the earliest consumer and the latest provider of each capability. Here the
answer of the check is put in terms of the components alone.

* **`Marks.exists_isFirst_of_mem_collect`**: a mark is that of the first component of the best rank.
* **`Registry.overdue_iff`**: the latest provider and the earliest consumer of a capability decide
  for all of its providers and consumers whether it is provided too late.
* **`Registry.exists_isFirst_of_capabilityOrderFault?`**: what is reported, and which capability it
  is reported of; **`Registry.capabilityOrderFault?_iff`** says that no other report is possible.
-/

namespace BootTable

namespace Marks

variable {better : Phase → Phase → Bool} {mentioned : Component → List Capability}

/-- The mark of a capability is that of the first component, of those that mention it, of the best
rank. -/
theorem exists_isFirst_of_mem_collect {rank : Phase → Nat}
    (hrank : ∀ p q, better p q = true ↔ rank p < rank q) {components : List Component}
    {capability : Capability} {mark : Mark}
    (h : (capability, mark) ∈ collect better mentioned components) :
    ∃ component, component.mark = mark ∧
      IsFirst (fun c => capability ∈ mentioned c ∧
        ∀ other ∈ components, capability ∈ mentioned other → rank c.phase ≤ rank other.phase)
        components component := by
  have hbest := mem_collect_iff.mp h
  obtain ⟨before, after, hsplit, hbefore, -⟩ := exists_split_of_best hrank hbest
  obtain ⟨earlier, rest, hmentioning, rfl, hrest⟩ := List.map_eq_append_iff.mp hsplit
  obtain ⟨component, later, rfl, rfl, -⟩ := List.map_eq_cons_iff.mp hrest
  have hmem : component ∈ components.filter fun c => capability ∈ mentioned c := by
    rw [hmentioning]
    exact List.mem_append_right _ List.mem_cons_self
  obtain ⟨hcomponent, hmentions⟩ := List.mem_filter.mp hmem
  have hleast : ∀ other ∈ components, capability ∈ mentioned other →
      rank component.phase ≤ rank other.phase := by
    intro other hother hmentioned
    have hmarked : other.mark ∈ (components.filter fun c => capability ∈ mentioned c).map
        Component.mark :=
      List.mem_map_of_mem (List.mem_filter.mpr ⟨hother, decide_eq_true hmentioned⟩)
    exact rank_le_of_best hrank hbest hmarked
  have hfirst : IsFirst (fun c => capability ∈ mentioned c ∧
      ∀ other ∈ components, capability ∈ mentioned other → rank c.phase ≤ rank other.phase)
      (components.filter fun c => capability ∈ mentioned c) component := by
    refine ⟨earlier, later, hmentioning, ⟨of_decide_eq_true hmentions, hleast⟩, ?_⟩
    intro b hb hleastb
    have hlt : rank component.phase < rank b.phase := hbefore b.mark (List.mem_map_of_mem hb)
    have hle : rank b.phase ≤ rank component.phase :=
      hleastb.2 component hcomponent (of_decide_eq_true hmentions)
    omega
  exact ⟨component, rfl, (isFirst_filter_iff fun c hc => decide_eq_true hc.1).mp hfirst⟩

end Marks

/-- Of later phases the rank counted from the last phase is smaller. -/
theorem Phase.sub_rank_le_iff {p q : Phase} : 4 - p.rank ≤ 4 - q.rank ↔ q ≤ p := by
  cases p <;> cases q <;> decide

namespace Registry

variable {registry : Registry} {x : Capability} {p c : Component}

/-- A capability is provided in a phase after that of a component that needs it. -/
def Overdue (registry : Registry) (x : Capability) : Prop :=
  ∃ p ∈ registry.components, ∃ c ∈ registry.components,
    x ∈ p.provides ∧ (x ∈ c.needs ∨ x ∈ c.apNeeds) ∧ c.phase < p.phase

/-- The first component, of those that provide a capability, of the latest phase. -/
def IsLastProvider (registry : Registry) (x : Capability) (p : Component) : Prop :=
  IsFirst (fun p => x ∈ p.provides ∧ ∀ q ∈ registry.components, x ∈ q.provides → q.phase ≤ p.phase)
    registry.components p

/-- The first component, of those that need a capability, of the earliest phase. -/
def IsFirstConsumer (registry : Registry) (x : Capability) (c : Component) : Prop :=
  IsFirst (fun c => (x ∈ c.needs ∨ x ∈ c.apNeeds) ∧
      ∀ d ∈ registry.components, x ∈ d.needs ∨ x ∈ d.apNeeds → c.phase ≤ d.phase)
    registry.components c

theorem overdue_iff (hp : registry.IsLastProvider x p) (hc : registry.IsFirstConsumer x c) :
    registry.Overdue x ↔ c.phase < p.phase := by
  constructor
  · rintro ⟨q, hq, d, hd, hprovided, hneeded, hlt⟩
    have hlast : q.phase.rank ≤ p.phase.rank := hp.holds.2 q hq hprovided
    have hfirst : c.phase.rank ≤ d.phase.rank := hc.holds.2 d hd hneeded
    have hlate : d.phase.rank < q.phase.rank := hlt
    show c.phase.rank < p.phase.rank
    omega
  · intro hlt
    exact ⟨p, hp.mem, c, hc.mem, hp.holds.1, hc.holds.1, hlt⟩

theorem exists_isFirstConsumer_of_mem {use : Mark} (h : (x, use) ∈ registry.firstUses) :
    ∃ c, c.mark = use ∧ registry.IsFirstConsumer x c := by
  obtain ⟨c, hmark, hfirst⟩ := Marks.exists_isFirst_of_mem_collect earlier_iff h
  simp only [Component.mem_consumed] at hfirst
  exact ⟨c, hmark, hfirst⟩

theorem exists_isLastProvider_of_lookup {mark : Mark}
    (h : registry.lastProviders.lookup x = some mark) :
    ∃ p, p.mark = mark ∧ registry.IsLastProvider x p := by
  obtain ⟨p, hmark, hfirst⟩ :=
    Marks.exists_isFirst_of_mem_collect later_iff (mem_lastProviders_iff.mpr h)
  simp only [Phase.sub_rank_le_iff] at hfirst
  exact ⟨p, hmark, hfirst⟩

theorem not_overdue_of_lookup (h : registry.lastProviders.lookup x = none) :
    ¬registry.Overdue x := by
  rintro ⟨p, hp, -, -, hprovided, -, -⟩
  obtain ⟨mark, hmem, -⟩ : ∃ mark, (x, mark) ∈ registry.lastProviders ∧
      4 - mark.phase.rank ≤ 4 - p.phase.rank :=
    Marks.exists_mem_collect later_iff hp hprovided
  have hfound := mem_lastProviders_iff.mp hmem
  rw [h] at hfound
  cases hfound

/-- What the marks of the earliest consumer and the latest provider of a capability give rise to. -/
def orderFault? (registry : Registry) (entry : Capability × Mark) : Option PlanError :=
  match registry.lastProviders.lookup entry.1 with
  | none => none
  | some provider =>
    if entry.2.phase < provider.phase then
      some (.capabilityOrdering entry.1 provider.component provider.phase
        entry.2.component entry.2.phase)
    else none

theorem capabilityOrderFault?_eq_findSome? (registry : Registry) :
    registry.capabilityOrderFault? = registry.firstUses.findSome? registry.orderFault? :=
  rfl

theorem orderFault?_eq_none_iff {use : Mark} (h : (x, use) ∈ registry.firstUses) :
    registry.orderFault? (x, use) = none ↔ ¬registry.Overdue x := by
  obtain ⟨c, rfl, hc⟩ := exists_isFirstConsumer_of_mem h
  unfold orderFault?
  cases hlookup : registry.lastProviders.lookup x with
  | none => simp [not_overdue_of_lookup hlookup]
  | some mark =>
    obtain ⟨p, rfl, hp⟩ := exists_isLastProvider_of_lookup hlookup
    rw [overdue_iff hp hc]
    by_cases hlt : c.phase < p.phase
    · simp [Component.mark, hlt]
    · simp [Component.mark, hlt]

theorem exists_of_orderFault? {use : Mark} (h : (x, use) ∈ registry.firstUses) {cause : PlanError}
    (hfault : registry.orderFault? (x, use) = some cause) :
    ∃ p c, registry.IsLastProvider x p ∧ registry.IsFirstConsumer x c ∧
      cause = .capabilityOrdering x p.id p.phase c.id c.phase := by
  obtain ⟨c, rfl, hc⟩ := exists_isFirstConsumer_of_mem h
  unfold orderFault? at hfault
  cases hlookup : registry.lastProviders.lookup x with
  | none => simp [hlookup] at hfault
  | some mark =>
    obtain ⟨p, rfl, hp⟩ := exists_isLastProvider_of_lookup hlookup
    refine ⟨p, c, hp, hc, ?_⟩
    by_cases hlt : c.phase < p.phase
    · simpa [hlookup, Component.mark, hlt, eq_comm] using hfault
    · simp [hlookup, Component.mark, hlt] at hfault

theorem exists_isFirst_of_capabilityOrderFault? {cause : PlanError}
    (h : registry.capabilityOrderFault? = some cause) :
    ∃ x p c, IsFirst registry.Overdue (registry.components.flatMap Component.consumed) x ∧
      registry.IsLastProvider x p ∧ registry.IsFirstConsumer x c ∧
      cause = .capabilityOrdering x p.id p.phase c.id c.phase := by
  rw [capabilityOrderFault?_eq_findSome?] at h
  obtain ⟨before, ⟨x, use⟩, after, hsplit, hfault, hbefore⟩ := List.findSome?_eq_some_iff.mp h
  have hmem {entry : Capability × Mark} (hin : entry ∈ before ++ (x, use) :: after) :
      entry ∈ registry.firstUses := hsplit ▸ hin
  have huse : (x, use) ∈ registry.firstUses :=
    hmem (List.mem_append_right _ List.mem_cons_self)
  obtain ⟨p, c, hp, hc, hcause⟩ := exists_of_orderFault? huse hfault
  -- The marks stand in the order in which the capabilities are first needed.
  have hfirst : IsFirst registry.Overdue (registry.firstUses.map Prod.fst) x := by
    refine ⟨before.map Prod.fst, after.map Prod.fst, ?_, ?_, ?_⟩
    · rw [hsplit, List.map_append, List.map_cons]
    · by_contra hnot
      rw [(orderFault?_eq_none_iff huse).mpr hnot] at hfault
      cases hfault
    · intro y hy
      obtain ⟨entry, hentry, rfl⟩ := List.mem_map.mp hy
      exact (orderFault?_eq_none_iff (hmem (List.mem_append_left _ hentry))).mp
        (hbefore entry hentry)
  have hkeys : registry.firstUses.map Prod.fst =
      firstOccurrences (registry.components.flatMap Component.consumed) :=
    Marks.map_fst_collect _
  rw [hkeys, isFirst_firstOccurrences_iff] at hfirst
  exact ⟨x, p, c, hfirst, hp, hc, hcause⟩

/-- The check passes exactly if no capability is provided in a phase after that of a component that
needs it. Otherwise it reports the first needed capability of which this is not so, with the first
component of its latest providers and the first one of its earliest consumers. -/
theorem capabilityOrderFault?_iff (registry : Registry) :
    (registry.capabilityOrderFault? = none ↔ ∀ x, ¬registry.Overdue x) ∧
      ∀ cause, registry.capabilityOrderFault? = some cause ↔
        ∃ x p c, IsFirst registry.Overdue (registry.components.flatMap Component.consumed) x ∧
          registry.IsLastProvider x p ∧ registry.IsFirstConsumer x c ∧
          cause = .capabilityOrdering x p.id p.phase c.id c.phase := by
  have hnone : registry.capabilityOrderFault? = none ↔ ∀ x, ¬registry.Overdue x := by
    rw [capabilityOrderFault?_eq_none_iff]
    constructor
    · rintro h x ⟨p, hp, c, hc, hprovided, hneeded, hlt⟩
      exact h p hp c hc x hprovided hneeded hlt
    · intro h p hp c hc x hprovided hneeded hlt
      exact h x ⟨p, hp, c, hc, hprovided, hneeded, hlt⟩
  refine ⟨hnone, fun cause => ⟨exists_isFirst_of_capabilityOrderFault?, ?_⟩⟩
  rintro ⟨x, p, c, hfirst, hp, hc, rfl⟩
  cases hfault : registry.capabilityOrderFault? with
  | none => exact absurd hfirst.holds (hnone.mp hfault x)
  | some own =>
    obtain ⟨y, q, d, hfirst', hq, hd, rfl⟩ := exists_isFirst_of_capabilityOrderFault? hfault
    obtain rfl := hfirst.unique hfirst'
    rw [hp.unique hq, hc.unique hd]

end Registry

end BootTable
