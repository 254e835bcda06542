import Sentinel.Router

namespace Sentinel.Selection

open Router

def sign (fleet : Fleet) (r : Ref) : String × ℤ := ((fleet.get r).id, (fleet.get r).weight)

def instancesOf (fleet : Fleet) (s : String) : List Ref := (fleet.byService.get? s).getD []

def routable (fleet : Fleet) (instances : List Ref) : List Ref :=
  instances.filter (fun r => (fleet.get r).isRoutable)

def setInstance (fleet : Fleet) (r : Ref) (i : BackendInstance) : Fleet :=
  { fleet with get := Function.update fleet.get r i }

def writeStatus (fleet : Fleet) (r : Ref) (status : InstanceStatus) : Fleet :=
  setInstance fleet r { fleet.get r with status }

/-- The instances of every service, their ids and their weights stay; what else the instances hold
may change. -/
structure SameConfig (fleet fleet' : Fleet) : Prop where
  byService : fleet'.byService = fleet.byService
  sign : ∀ r, sign fleet' r = sign fleet r

def Distinguished (fleet : Fleet) : Prop :=
  ∀ s, ∀ r ∈ instancesOf fleet s, ∀ r' ∈ instancesOf fleet s, sign fleet r = sign fleet r' → r = r'

/-- Every cached cycle goes through instances of its service that its signature lists. -/
def Coherent (fleet : Fleet) (sel : WeightedRoundRobinSelector) : Prop :=
  ∀ s e, sel.cycles.get? s = some e →
    ∀ r ∈ e.cycle.items, r ∈ instancesOf fleet s ∧ sign fleet r ∈ e.signature

variable {fleet fleet' : Fleet} {sel : WeightedRoundRobinSelector} {s : String} {r : Ref}

theorem SameConfig.refl (fleet : Fleet) : SameConfig fleet fleet := ⟨rfl, fun _ => rfl⟩

theorem SameConfig.trans {fleet'' : Fleet} (h : SameConfig fleet fleet')
    (h' : SameConfig fleet' fleet'') : SameConfig fleet fleet'' :=
  ⟨h'.byService.trans h.byService, fun r => (h'.sign r).trans (h.sign r)⟩

theorem SameConfig.instancesOf_eq (h : SameConfig fleet fleet') (s : String) :
    instancesOf fleet' s = instancesOf fleet s := by
  unfold instancesOf
  rw [h.byService]

theorem SameConfig.id_eq (h : SameConfig fleet fleet') (r : Ref) :
    (fleet'.get r).id = (fleet.get r).id := congrArg Prod.fst (h.sign r)

theorem SameConfig.coherent (h : SameConfig fleet fleet') (hc : Coherent fleet sel) :
    Coherent fleet' sel := by
  intro s e he r hr
  rw [h.instancesOf_eq, h.sign]
  exact hc s e he r hr

theorem SameConfig.distinguished (h : SameConfig fleet fleet') (hd : Distinguished fleet) :
    Distinguished fleet' := by
  intro s r hr r' hr' he
  rw [h.instancesOf_eq] at hr hr'
  rw [h.sign, h.sign] at he
  exact hd s r hr r' hr' he

theorem writeStatus_sameConfig (fleet : Fleet) (r : Ref) (status : InstanceStatus) :
    SameConfig fleet (writeStatus fleet r status) := by
  refine ⟨rfl, fun r' => ?_⟩
  by_cases h : r' = r
  · subst h
    simp [sign, writeStatus, setInstance]
  · simp [sign, writeStatus, setInstance, h]

theorem distinguished_of_singleton (h : fleet.byService = Dict.empty.set s [r]) :
    Distinguished fleet := by
  have hmem : ∀ s', ∀ r' ∈ instancesOf fleet s', r' = r := by
    intro s' r' hr'
    unfold instancesOf at hr'
    rw [h, Dict.get?_set] at hr'
    split_ifs at hr'
    · exact List.mem_singleton.mp hr'
    · simp at hr'
  intro s' r₁ h₁ r₂ h₂ _
  rw [hmem s' r₁ h₁, hmem s' r₂ h₂]

theorem coherent_empty (fleet : Fleet) : Coherent fleet {} := by
  intro s e he
  simp at he

theorem mem_routable {instances : List Ref} :
    r ∈ routable fleet instances ↔ r ∈ instances ∧ (fleet.get r).status = .healthy := by
  simp [routable, BackendInstance.isRoutable]

theorem mem_of_mem_expanded {instances : List Ref} (h : r ∈ expanded fleet instances) :
    r ∈ instances := by
  obtain ⟨r', hr', hr⟩ := List.mem_flatMap.mp h
  rw [List.eq_of_mem_replicate hr]
  exact hr'

theorem current_mem (c : Cycle) : c.current ∈ c.items := List.get_mem c.items c.pos

def rebuilt (fleet : Fleet) (shuffle : Shuffle) {instances : List Ref}
    (h : routable fleet instances ≠ []) : Cycle :=
  Cycle.start (shuffle.order (expanded fleet (routable fleet instances)))
    (shuffle.order_ne_nil (expanded_ne_nil fleet h))

variable (fleet sel s) (shuffle : Shuffle) (instances : List Ref)

def cycleFor (h : routable fleet instances ≠ []) : Cycle :=
  match sel.cycles.get? s with
  | some e =>
    if e.signature = (routable fleet instances).map (sign fleet) then e.cycle
    else rebuilt fleet shuffle h
  | none => rebuilt fleet shuffle h

theorem select_of_routable (h : routable fleet instances ≠ []) :
    sel.select fleet shuffle s instances =
      (⟨sel.cycles.set s ⟨(routable fleet instances).map (sign fleet),
          (cycleFor fleet sel s shuffle instances h).advance⟩⟩,
        some (cycleFor fleet sel s shuffle instances h).current) := dif_neg h

theorem cycleFor_cases (h : routable fleet instances ≠ []) :
    (cycleFor fleet sel s shuffle instances h).items.Perm
      (expanded fleet (routable fleet instances)) ∨
    ∃ e, sel.cycles.get? s = some e ∧ e.signature = (routable fleet instances).map (sign fleet) ∧
      cycleFor fleet sel s shuffle instances h = e.cycle := by
  unfold cycleFor
  cases he : sel.cycles.get? s with
  | none => exact .inl (shuffle.perm _)
  | some e =>
    by_cases hs : e.signature = (routable fleet instances).map (sign fleet)
    · exact .inr ⟨e, rfl, hs, if_pos hs⟩
    · simp only [hs, ↓reduceIte]
      exact .inl (shuffle.perm _)

/-- A call goes on with the cached cycle when its signature is the current one, and else with a
fresh cycle through the routable instances. -/
theorem select_cases :
    (routable fleet instances = [] ∧ sel.select fleet shuffle s instances = (sel, none)) ∨
    (routable fleet instances ≠ [] ∧ ∃ c : Cycle,
      (c.items.Perm (expanded fleet (routable fleet instances)) ∨
        ∃ e, sel.cycles.get? s = some e ∧
          e.signature = (routable fleet instances).map (sign fleet) ∧ c = e.cycle) ∧
      sel.select fleet shuffle s instances =
        (⟨sel.cycles.set s ⟨(routable fleet instances).map (sign fleet), c.advance⟩⟩,
          some c.current)) := by
  by_cases h : routable fleet instances = []
  · exact .inl ⟨h, dif_pos h⟩
  · exact .inr ⟨h, _, cycleFor_cases fleet sel s shuffle instances h,
      select_of_routable fleet sel s shuffle instances h⟩

/-- `NoHealthyBackendError` is raised exactly when no instance is routable. -/
theorem select_eq_none_iff :
    (sel.select fleet shuffle s instances).2 = none ↔
      ∀ r ∈ instances, (fleet.get r).status ≠ .healthy := by
  have hempty : routable fleet instances = [] ↔
      ∀ r ∈ instances, (fleet.get r).status ≠ .healthy := by
    simp [routable, BackendInstance.isRoutable]
  obtain ⟨hr, h⟩ | ⟨hr, c, -, h⟩ := select_cases fleet sel s shuffle instances
  · rw [h]
    exact ⟨fun _ => hempty.mp hr, fun _ => rfl⟩
  · rw [h]
    exact ⟨fun he => absurd he (by simp), fun he => absurd (hempty.mpr he) hr⟩

variable {fleet sel s shuffle}

theorem select_coherent (hc : Coherent fleet sel) :
    Coherent fleet (sel.select fleet shuffle s (instancesOf fleet s)).1 := by
  obtain ⟨-, h⟩ | ⟨-, c, hitems, h⟩ :=
    select_cases fleet sel s shuffle (instancesOf fleet s)
  · rw [h]
    exact hc
  · rw [h]
    intro s' e he r hr
    rw [Dict.get?_set] at he
    split_ifs at he with hs
    · subst hs
      cases he
      obtain hp | ⟨e, he, hsig, rfl⟩ := hitems
      · have hmem := mem_of_mem_expanded (hp.mem_iff.mp hr)
        exact ⟨(mem_routable.mp hmem).1, List.mem_map_of_mem hmem⟩
      · rw [← hsig]
        exact hc s' e he r hr
    · exact hc s' e he r hr

theorem select_mem (hc : Coherent fleet sel)
    (h : (sel.select fleet shuffle s (instancesOf fleet s)).2 = some r) :
    r ∈ instancesOf fleet s := by
  obtain ⟨-, hselect⟩ | ⟨-, c, hitems, hselect⟩ :=
    select_cases fleet sel s shuffle (instancesOf fleet s)
  · rw [hselect] at h
    exact absurd h (by simp)
  · rw [hselect] at h
    cases h
    obtain hp | ⟨e, he, hsig, rfl⟩ := hitems
    · exact (mem_routable.mp (mem_of_mem_expanded (hp.mem_iff.mp (current_mem c)))).1
    · exact (hc s e he _ (current_mem e.cycle)).1

theorem select_healthy (hd : Distinguished fleet) (hc : Coherent fleet sel)
    (h : (sel.select fleet shuffle s (instancesOf fleet s)).2 = some r) :
    (fleet.get r).status = .healthy := by
  obtain ⟨-, hselect⟩ | ⟨-, c, hitems, hselect⟩ :=
    select_cases fleet sel s shuffle (instancesOf fleet s)
  · rw [hselect] at h
    exact absurd h (by simp)
  · rw [hselect] at h
    cases h
    obtain hp | ⟨e, he, hsig, rfl⟩ := hitems
    · exact (mem_routable.mp (mem_of_mem_expanded (hp.mem_iff.mp (current_mem c)))).2
    · obtain ⟨hin, hmem⟩ := hc s e he _ (current_mem e.cycle)
      rw [hsig] at hmem
      obtain ⟨r', hr', hsign⟩ := List.mem_map.mp hmem
      rw [← hd s r' (mem_routable.mp hr').1 _ hin hsign]
      exact (mem_routable.mp hr').2

end Sentinel.Selection
