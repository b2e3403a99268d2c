import Keck.Agent.Selection
import Keck.Agent.EnergyRuns
/-!
# What the order of the power sources decides

The agent takes its sources in the order in which they are discovered, and of
readings that rank the same it keeps the first: it keeps the `argmax` of a
`merit`. `order_free_iff` says for which readings the order does not matter.
-/
namespace Keck.Agent

open Keck.Lib

/-! ## Readings in another order -/

/-- The non-zero reading of a source, given the energies of the last tick. -/
def readingOf (intervalNs : Nat) (prev : Table String Nat) (s : Source) : Option DeviceReading :=
  match s.read with
  | .error _ => none
  | .ok r =>
    let powerUw := r.power (prev.lookup s.id) intervalNs
    if powerUw = 0 then none else some ⟨s.component, s.granularity, ⟨powerUw, s.name, r.readingType⟩⟩

theorem readingOf_congr {intervalNs : Nat} {prev prev' : Table String Nat} {s : Source}
    (h : prev.lookup s.id = prev'.lookup s.id) : readingOf intervalNs prev s = readingOf intervalNs prev' s := by
  unfold readingOf
  rw [h]

theorem readings_cons (intervalNs : Nat) (prev : Table String Nat) (s : Source) (sources : List Source) :
    readings intervalNs prev (s :: sources) =
      (readingOf intervalNs prev s).toList ++ readings intervalNs (storeEnergy prev s) sources := by
  cases h : s.read with
  | error e => simp only [readings, readingOf, storeEnergy, h, Option.toList_none, List.nil_append]
  | ok r =>
    simp only [readings, readingOf, storeEnergy, h]
    split
    · rfl
    · rfl

/-- Sources with ids of their own are read independently of each other. -/
theorem readings_eq_filterMap (intervalNs : Nat) {sources : List Source} (hid : (sources.map (·.id)).Nodup)
    (prev : Table String Nat) : readings intervalNs prev sources = sources.filterMap (readingOf intervalNs prev) := by
  induction sources generalizing prev with
  | nil => rfl
  | cons s sources ih =>
    rw [List.map_cons, List.nodup_cons] at hid
    have hrest : readings intervalNs (storeEnergy prev s) sources = sources.filterMap (readingOf intervalNs prev) := by
      rw [ih hid.2]
      refine List.filterMap_congr fun s' hs' => ?_
      have hne : s.id ≠ s'.id := fun h => hid.1 (h ▸ List.mem_map_of_mem hs')
      exact readingOf_congr (lookup_storeEnergy_of_ne hne)
    rw [readings_cons, hrest]
    cases h : readingOf intervalNs prev s with
    | none => rw [List.filterMap_cons_none h]; rfl
    | some r => rw [List.filterMap_cons_some h]; rfl

theorem readings_perm (intervalNs : Nat) (prev : Table String Nat) {sources sources' : List Source}
    (hid : (sources.map (·.id)).Nodup) (hp : sources'.Perm sources) :
    (readings intervalNs prev sources').Perm (readings intervalNs prev sources) := by
  rw [readings_eq_filterMap intervalNs hid, readings_eq_filterMap intervalNs ((hp.map _).nodup_iff.2 hid)]
  exact hp.filterMap _

/-! ## Which reading is chosen -/

/-- The power chosen from a component's readings. -/
def chosen (c : Component) (crs : List ComponentReading) : Nat := ((crs.foldl (keep c) none).map (·.powerUw)).getD 0

theorem selected_eq_chosen (intervalNs : Nat) (prev : Table String Nat) (sources : List Source) (c : Component) :
    (readSources intervalNs prev sources).selected c = chosen c (ofComponent c (readings intervalNs prev sources)) := by
  rw [Tick.selected, best_eq, chosen]

/-- What makes a component prefer a reading to another. -/
def merit : Component → ComponentReading → Nat
  | .platform, cr => cr.powerUw
  | _, cr => cr.readingType.rank

theorem keep_some (c : Component) (old cr : ComponentReading) :
    keep c (some old) cr = if merit c old < merit c cr then some cr else some old := by
  cases c with
  | platform => rfl
  | _ =>
    simp only [keep, better, isBetter, merit, decide_eq_true_eq, gt_iff_lt]
    rfl

/-- The reading kept is the first of the highest merit. -/
theorem foldl_keep_eq_argmax (c : Component) (crs : List ComponentReading) :
    crs.foldl (keep c) none = crs.argmax (merit c) := by
  induction crs using List.reverseRecOn with
  | nil => rfl
  | append_singleton crs cr ih =>
    rw [List.foldl_append, List.foldl_cons, List.foldl_nil, ih, List.argmax_concat]
    cases crs.argmax (merit c) with
    | none => cases c <;> rfl
    | some old => rw [keep_some]

/-- One of the readings of the highest merit is chosen, if there is any. -/
theorem chosen_cases (c : Component) (crs : List ComponentReading) :
    (crs = [] ∧ chosen c crs = 0) ∨
    ∃ cr ∈ crs, (∀ cr' ∈ crs, merit c cr' ≤ merit c cr) ∧ chosen c crs = cr.powerUw := by
  unfold chosen
  rw [foldl_keep_eq_argmax]
  cases h : crs.argmax (merit c) with
  | none => exact .inl ⟨List.argmax_eq_none.1 h, rfl⟩
  | some cr => exact .inr ⟨cr, List.argmax_mem h, fun cr' hcr' => List.le_of_mem_argmax hcr' h, rfl⟩

theorem foldl_keep_of_le {c : Component} {cr : ComponentReading} {crs : List ComponentReading}
    (h : ∀ cr' ∈ crs, merit c cr' ≤ merit c cr) : crs.foldl (keep c) (some cr) = some cr := by
  induction crs with
  | nil => rfl
  | cons cr' crs ih =>
    rw [List.forall_mem_cons] at h
    rw [List.foldl_cons, keep_some, if_neg (Nat.not_lt.2 h.1), ih h.2]

/-- A reading is chosen if those before it have a lower merit and none after it
a higher one. -/
theorem chosen_append_cons {c : Component} {before after : List ComponentReading} {cr : ComponentReading}
    (hbefore : ∀ cr' ∈ before, merit c cr' < merit c cr) (hafter : ∀ cr' ∈ after, merit c cr' ≤ merit c cr) :
    chosen c (before ++ cr :: after) = cr.powerUw := by
  have hkeep : keep c (before.foldl (keep c) none) cr = some cr := by
    rw [foldl_keep_eq_argmax]
    cases h : before.argmax (merit c) with
    | none => cases c <;> rfl
    | some old => rw [keep_some, if_pos (hbefore old (List.argmax_mem h))]
  rw [chosen, List.foldl_append, List.foldl_cons, hkeep, foldl_keep_of_le hafter]
  rfl

/-- The readings of a component with the highest merit all have one power. -/
def OnePower (c : Component) (crs : List ComponentReading) : Prop :=
  ∀ cr ∈ crs, ∀ cr' ∈ crs, (∀ x ∈ crs, merit c x ≤ merit c cr) → (∀ x ∈ crs, merit c x ≤ merit c cr') →
    cr.powerUw = cr'.powerUw

theorem chosen_perm {c : Component} {crs crs' : List ComponentReading} (hp : crs'.Perm crs) (h : OnePower c crs) :
    chosen c crs' = chosen c crs := by
  rcases chosen_cases c crs with ⟨rfl, h0⟩ | ⟨cr, hcr, hmax, hchosen⟩
  · rw [List.perm_nil.1 hp]
  · rcases chosen_cases c crs' with ⟨rfl, -⟩ | ⟨cr', hcr', hmax', hchosen'⟩
    · rw [List.nil_perm.1 hp] at hcr
      cases hcr
    · rw [hchosen, hchosen']
      exact h cr' (hp.subset hcr') cr hcr (fun x hx => hmax' x (hp.symm.subset hx)) hmax

/-- If each of the readings of the highest merit is chosen, they have one power. -/
theorem onePower_of_chosen {c : Component} {crs : List ComponentReading}
    (h : ∀ cr ∈ crs, (∀ x ∈ crs, merit c x ≤ merit c cr) → chosen c crs = cr.powerUw) : OnePower c crs := by
  intro cr hcr cr' hcr' hmax hmax'
  rw [← h cr hcr hmax, ← h cr' hcr' hmax']

theorem ofComponent_cons {c : Component} {r : DeviceReading} (hc : r.component = c) (rs : List DeviceReading) :
    ofComponent c (r :: rs) = r.reading :: ofComponent c rs := by
  rw [ofComponent, List.filter_cons_of_pos (by simpa using hc)]
  rfl

/-- The source a reading is from. -/
theorem source_of_mem {intervalNs : Nat} {prev : Table String Nat} {sources : List Source} {c : Component}
    (hid : (sources.map (·.id)).Nodup) {cr : ComponentReading}
    (h : cr ∈ ofComponent c (readings intervalNs prev sources)) :
    ∃ s r, s ∈ sources ∧ readingOf intervalNs prev s = some r ∧ r.component = c ∧ r.reading = cr := by
  obtain ⟨r, hr, rfl⟩ := List.mem_map.1 h
  obtain ⟨hr, hc⟩ := List.mem_filter.1 hr
  rw [readings_eq_filterMap intervalNs hid] at hr
  obtain ⟨s, hs, hread⟩ := List.mem_filterMap.1 hr
  exact ⟨s, r, hs, hread, of_decide_eq_true hc, rfl⟩

theorem ofComponent_perm {rs rs' : List DeviceReading} (h : rs'.Perm rs) (c : Component) :
    (ofComponent c rs').Perm (ofComponent c rs) := (h.filter _).map _

/-- For every list of sources with ids of their own and whatever they read: the
power of a component is the same in every order of the sources exactly if its
readings of the highest merit have one power, which those of the platform
always have. -/
theorem order_free_iff (intervalNs : Nat) (prev : Table String Nat) (sources : List Source)
    (hid : (sources.map (·.id)).Nodup) (c : Component) :
    (∀ sources', sources'.Perm sources →
      (readSources intervalNs prev sources').selected c = (readSources intervalNs prev sources).selected c) ↔
    OnePower c (ofComponent c (readings intervalNs prev sources)) := by
  simp only [selected_eq_chosen]
  constructor
  · intro hfree
    refine onePower_of_chosen fun cr hcr hmax => ?_
    -- The reading is chosen when its source comes first.
    obtain ⟨s, r, hs, hread, hc, rfl⟩ := source_of_mem hid hcr
    obtain ⟨front, back, rfl⟩ := List.append_of_mem hs
    have hp : (s :: (front ++ back)).Perm (front ++ s :: back) := List.perm_middle.symm
    have hid' := (hp.map (·.id)).nodup_iff.2 hid
    have hperm := ofComponent_perm (readings_perm intervalNs prev hid hp) c
    rw [← hfree _ hp]
    rw [readings_eq_filterMap intervalNs hid', List.filterMap_cons_some hread, ofComponent_cons hc] at hperm ⊢
    exact chosen_append_cons (List.forall_mem_nil _) fun x hx => hmax x (hperm.subset (List.mem_cons_of_mem _ hx))
  · intro h sources' hp
    exact chosen_perm (ofComponent_perm (readings_perm intervalNs prev hid hp) c) h

/-- Two sockets that are not sorted would be reported by their order. -/
theorem order_free_iff_twoSockets :
    (twoSockets.map (·.id)).Nodup ∧
    ¬∀ sources', sources'.Perm twoSockets → (readSources 1000000000 twoSocketsBefore sources').selected .cpu =
      (readSources 1000000000 twoSocketsBefore twoSockets).selected .cpu := by
  have hid : (twoSockets.map (·.id)).Nodup := by decide
  have hcrs : ofComponent .cpu (readings 1000000000 twoSocketsBefore twoSockets) =
      [⟨40, "RAPL package 0", .estimated⟩, ⟨50, "RAPL package 1", .estimated⟩] := rfl
  refine ⟨hid, ?_⟩
  rw [order_free_iff 1000000000 twoSocketsBefore twoSockets hid .cpu, hcrs]
  intro h
  have heq := h _ List.mem_cons_self _ (List.mem_cons_of_mem _ List.mem_cons_self) (by simp [merit]) (by simp [merit])
  cases heq

end Keck.Agent
