import Keck.Lib.Checked
import Keck.Lib.Rounding
import Keck.Lib.Text
import Keck.Agent.Conservation
/-!
# GPU power of the pods

`add_gpu_power_to_pods` of `keck-agent/src/main.rs`. The exporter names the pod
of a device by name and namespace, and the report is keyed by uid, so a line
goes to the first pod of the list with its names, or to a new pod with the uid
the cache has for them. `addLine_cases` says what one line does; what it keeps
(`Tidy`) is what makes the second way safe: a listed pod whose uid is cached
has the cached names, so it would have been found the first way.

The powers are doubles, and the sums `u64`, which wrap around in the release
build. The invariants are proved of the same merge with sums that are not
bounded (`gpuSums`); the code's list is that one, wrapped (`gpuPods_eq`).
-/
namespace Keck.Agent

open Keck.Lib Keck.Lib.Text

/-! ## The lines of the exporter -/

def extractDcgmLabel (line : List Char) (label : String) : Option String := do
  let rest ← afterFirst (label.toList ++ ['=', '"']) line
  let (value, _) ← cut '"' rest
  return String.ofList value

/-- A line of this node that names a pod and a power. -/
structure GpuLine where
  podName : String
  ns : String
  watts : F64

def gpuLine (nodeName : String) (line : List Char) : Option GpuLine :=
  if !"DCGM_FI_DEV_POWER_USAGE\x7b".toList.isPrefixOf line then none
  -- a line without the label is of this node too
  else if (extractDcgmLabel line "Hostname").any (· != nodeName) then none
  else
    match extractDcgmLabel line "pod" with
    | none => none
    | some podName =>
      if podName.isEmpty then none
      else
        let ns := (extractDcgmLabel line "namespace").getD ""
        let watts := ((afterLast ' ' line).bind F64.parseRounded).getD 0
        if watts.nonpos then none else some ⟨podName, ns, watts⟩

def gpuLines (nodeName : String) (body : List Char) : List GpuLine := (lines body).filterMap (gpuLine nodeName)

/-- `watts * 1_000_000.0`. -/
def GpuLine.microwatts (l : GpuLine) : F64 := (l.watts.scale 1000000).round

/-- `(watts * 1_000_000.0) as u64`. -/
def GpuLine.gpuUw (l : GpuLine) : Nat := l.microwatts.toUnsigned 64

/-- The whole microwatts of a line, before the cast. -/
def GpuLine.floorUw (l : GpuLine) : ℕ∞ := l.microwatts.floor

/-- Up to a gigawatt the two roundings, of the text and of the product, cost
less than half a microwatt, and the cast less than one. -/
theorem gpuUw_near (podName ns : String) {w : ℚ} (hw : 0 ≤ w) (hmax : w * 1000000 ≤ 2 ^ 50) :
    w * 1000000 - 3 / 2 < GpuLine.gpuUw ⟨podName, ns, F64.round (.finite w)⟩ ∧
      GpuLine.gpuUw ⟨podName, ns, F64.round (.finite w)⟩ < w * 1000000 + 1 / 2 := by
  set watts := F64.nearest w with hwatts
  set product := F64.nearest (watts * 1000000) with hproduct
  have hwatts0 : 0 ≤ watts := F64.nearest_nonneg hw
  have hproduct0 : 0 ≤ product := F64.nearest_nonneg (by positivity)
  have herror := F64.abs_nearest_sub_le_mul w
  have herror' := F64.abs_nearest_sub_le_mul (watts * 1000000)
  rw [← hwatts, abs_of_nonneg hw, abs_le] at herror
  rw [← hproduct, abs_of_nonneg (by positivity : 0 ≤ watts * 1000000), abs_le] at herror'
  have htiny : (1 : ℚ) / 2 ^ 1075 ≤ 1 / 2 ^ 51 :=
    one_div_le_one_div_of_le (by norm_num) (pow_le_pow_right₀ one_le_two (by norm_num))
  generalize (1 : ℚ) / 2 ^ 1075 = tiny at htiny herror herror'
  have hwattsMax : watts * 1000000 ≤ 2 ^ 51 := by linarith
  have hproductMax : product ≤ 2 ^ 52 := by linarith
  -- neither value is large enough to become an infinity or to be capped
  have hlarge : (2 : ℚ) ^ 51 ≤ 2 ^ 1023 := pow_le_pow_right₀ one_le_two (by norm_num)
  have hround : F64.round (.finite w) = .finite watts := by
    apply F64.round_finite
    rw [abs_of_nonneg hw]
    exact le_trans (by linarith) hlarge
  have hround' : F64.round (.finite (watts * 1000000)) = .finite product := by
    apply F64.round_finite
    rw [abs_of_nonneg (by positivity)]
    exact hwattsMax.trans hlarge
  have hle : (⌊product⌋ : ℚ) ≤ product := Int.floor_le product
  have hlt : product < ⌊product⌋ + 1 := Int.lt_floor_add_one product
  have hgpu : GpuLine.gpuUw ⟨podName, ns, F64.round (.finite w)⟩ = ⌊product⌋.toNat := by
    have hfloor : ⌊product⌋ ≤ 2 ^ 52 := by exact_mod_cast hle.trans hproductMax
    rw [GpuLine.gpuUw, GpuLine.microwatts, hround, F64.scale, hround', F64.toUnsigned]
    apply min_eq_left
    omega
  have hcast : ((⌊product⌋.toNat : ℕ) : ℚ) = ⌊product⌋ := by
    exact_mod_cast Int.toNat_of_nonneg (Int.floor_nonneg.2 hproduct0)
  rw [hgpu, hcast]
  constructor <;> linarith

/-! ## The merge -/

def GpuLine.isOf (l : GpuLine) (podName ns : String) : Bool := podName == l.podName && ns == l.ns

/-- `pod.gpu_uw += gpu_uw` and `recalculate_total`, in 64 bits. -/
def PodPower.addGpu (p : PodPower) (gpuUw : Nat) : PodPower :=
  let gpuUw := add64 p.gpuUw gpuUw
  { p with
    gpuUw := gpuUw
    totalUw := add64 (add64 (add64 (add64 p.cpuUw p.memoryUw) gpuUw) p.storageUw) p.ioUw }

/-- The same with sums that are not bounded. -/
def PodPower.addGpuSum (p : PodPower) (gpuUw : Nat) : PodPower :=
  { p with gpuUw := p.gpuUw + gpuUw }.recalculateTotal

/-- A pod that the scan did not see. -/
def gpuPod (nodeName uid : String) (identity : PodIdentity) (l : GpuLine) : PodPower :=
  { nodeName := nodeName
    podUid := uid
    podName := l.podName
    ns := l.ns
    cpuUw := 0
    memoryUw := 0
    gpuUw := l.gpuUw
    storageUw := 0
    ioUw := 0
    totalUw := l.gpuUw
    workloadUid := identity.workloadUid
    workloadName := identity.workloadName
    workloadKind := identity.workloadKind
    workloadCategory := identity.workloadCategory.asStr
    labels := identity.labels }

/-- One line, with the way power is added to a pod that is there. -/
def addLine (add : PodPower → Nat → PodPower) (nodeName : String) (podCache : Table String PodIdentity)
    (pods : List PodPower) (l : GpuLine) : List PodPower :=
  if pods.any fun p => l.isOf p.podName p.ns then
    pods.replaceF fun p => if l.isOf p.podName p.ns then some (add p l.gpuUw) else none
  else
    match podCache.entries.find? fun e => l.isOf e.2.name e.2.ns with
    | some ⟨uid, identity⟩ => pods ++ [gpuPod nodeName uid identity l]
    | none => pods

def addGpuPowerToPods (nodeName : String) (podCache : Table String PodIdentity) (pods : List PodPower)
    (body : List Char) : List PodPower :=
  (gpuLines nodeName body).foldl (addLine PodPower.addGpu nodeName podCache) pods

/-- The list or the cache has a pod of the line's names. -/
def GpuLine.known (podCache : Table String PodIdentity) (pods : List PodPower) (l : GpuLine) : Bool :=
  pods.any (fun p => l.isOf p.podName p.ns) || podCache.entries.any fun e => l.isOf e.2.name e.2.ns

/-! ## One line -/

section AddGpuSum

variable (p : PodPower) (gpuUw : Nat)

@[simp] theorem PodPower.addGpuSum_podUid : (p.addGpuSum gpuUw).podUid = p.podUid := rfl

@[simp] theorem PodPower.addGpuSum_podName : (p.addGpuSum gpuUw).podName = p.podName := rfl

@[simp] theorem PodPower.addGpuSum_ns : (p.addGpuSum gpuUw).ns = p.ns := rfl

@[simp] theorem PodPower.addGpuSum_gpuUw : (p.addGpuSum gpuUw).gpuUw = p.gpuUw + gpuUw := rfl

end AddGpuSum

theorem GpuLine.isOf_iff {l : GpuLine} {podName ns : String} :
    l.isOf podName ns = true ↔ podName = l.podName ∧ ns = l.ns := by
  simp [isOf]

/-- What a line does to the pods, in three cases. -/
theorem addLine_cases (add : PodPower → Nat → PodPower) (nodeName : String) (podCache : Table String PodIdentity)
    (pods : List PodPower) (l : GpuLine) :
    -- The first pod of its names gets its power.
    (∃ p before after, pods = before ++ p :: after ∧ l.isOf p.podName p.ns = true ∧
      addLine add nodeName podCache pods l = before ++ add p l.gpuUw :: after) ∨
    -- No pod has its names, and a cached one is added.
    ((∀ p ∈ pods, l.isOf p.podName p.ns = false) ∧
      ∃ uid identity, podCache.lookup uid = some identity ∧ l.isOf identity.name identity.ns = true ∧
        addLine add nodeName podCache pods l = pods ++ [gpuPod nodeName uid identity l]) ∨
    -- Nothing is known of its names.
    (l.known podCache pods = false ∧ addLine add nodeName podCache pods l = pods) := by
  unfold addLine
  by_cases hany : (pods.any fun p => l.isOf p.podName p.ns) = true
  · left
    rw [if_pos hany]
    obtain ⟨p, hp, hof⟩ := List.any_eq_true.1 hany
    obtain ⟨q, q', before, after, -, hq, hpods, hreplaced⟩ :=
      List.exists_of_replaceF (p := fun p => if l.isOf p.podName p.ns then some (add p l.gpuUw) else none) hp
        (if_pos hof)
    split at hq
    · cases hq
      exact ⟨q, before, after, hpods, ‹_›, hreplaced⟩
    · cases hq
  · right
    rw [if_neg hany]
    have hnone : ∀ p ∈ pods, l.isOf p.podName p.ns = false := by simpa using hany
    cases hfind : podCache.entries.find? fun e => l.isOf e.2.name e.2.ns with
    | some e =>
      left
      have hof := List.find?_some hfind
      exact ⟨hnone, e.1, e.2, AList.mem_lookup_iff.2 (List.mem_of_find?_eq_some hfind), hof, rfl⟩
    | none =>
      right
      refine ⟨?_, rfl⟩
      have hcache : ∀ e ∈ podCache.entries, l.isOf e.2.name e.2.ns = false := by simpa using hfind
      unfold GpuLine.known
      rw [Bool.or_eq_false_iff, List.any_eq_false, List.any_eq_false]
      exact ⟨fun p hp => by simp [hnone p hp], fun e he => by simp [hcache e he]⟩

/-- All of a pod but its GPU power and its total. -/
def PodPower.base (p : PodPower) : PodPower := { p with gpuUw := 0, totalUw := 0 }

/-- The total is the sum of the parts. -/
def PodPower.Summed (p : PodPower) : Prop := p.totalUw = p.cpuUw + p.memoryUw + p.gpuUw + p.storageUw + p.ioUw

/-- No uid is listed twice, a cached uid is listed under its cached names, and
totals are sums. -/
structure Tidy (podCache : Table String PodIdentity) (pods : List PodPower) : Prop where
  nodup : (pods.map (·.podUid)).Nodup
  named : ∀ p ∈ pods, ∀ identity, podCache.lookup p.podUid = some identity →
    p.podName = identity.name ∧ p.ns = identity.ns
  summed : ∀ p ∈ pods, p.Summed

theorem Tidy.addGpuSum {podCache : Table String PodIdentity} {before after : List PodPower} {p : PodPower}
    (h : Tidy podCache (before ++ p :: after)) (gpuUw : Nat) :
    Tidy podCache (before ++ p.addGpuSum gpuUw :: after) := by
  have hmem : ∀ q ∈ before ++ p.addGpuSum gpuUw :: after, q = p.addGpuSum gpuUw ∨ q ∈ before ++ p :: after := by
    intro q hq
    simp only [List.mem_append, List.mem_cons] at hq ⊢
    tauto
  refine ⟨by simpa using h.nodup, ?_, ?_⟩
  · intro q hq
    rcases hmem q hq with rfl | hq
    · exact h.named p (by simp)
    · exact h.named q hq
  · intro q hq
    rcases hmem q hq with rfl | hq
    · rfl
    · exact h.summed q hq

theorem Tidy.push {podCache : Table String PodIdentity} {pods : List PodPower} {l : GpuLine} {uid : String}
    {identity : PodIdentity} (h : Tidy podCache pods) (hnone : ∀ p ∈ pods, l.isOf p.podName p.ns = false)
    (hcached : podCache.lookup uid = some identity) (hof : l.isOf identity.name identity.ns = true)
    (nodeName : String) : Tidy podCache (pods ++ [gpuPod nodeName uid identity l]) := by
  obtain ⟨hname, hns⟩ := GpuLine.isOf_iff.1 hof
  refine ⟨?_, ?_, ?_⟩
  · rw [List.map_append, List.nodup_append]
    refine ⟨h.nodup, by simp, ?_⟩
    -- a listed pod of this uid would have the cached names, which are the line's
    rintro _ hlisted _ hnew rfl
    obtain ⟨q, hq, hqu⟩ := List.mem_map.1 hlisted
    have huid : q.podUid = uid := hqu.trans (List.mem_singleton.1 hnew)
    obtain ⟨hqname, hqns⟩ := h.named q hq identity (huid ▸ hcached)
    have hqof : l.isOf q.podName q.ns = true := GpuLine.isOf_iff.2 ⟨hqname.trans hname, hqns.trans hns⟩
    rw [hnone q hq] at hqof
    cases hqof
  · intro q hq other hother
    rcases List.mem_append.1 hq with hq | hq
    · exact h.named q hq other hother
    · obtain rfl := List.mem_singleton.1 hq
      obtain rfl : identity = other := Option.some.inj (hcached.symm.trans hother)
      exact ⟨hname.symm, hns.symm⟩
  · intro q hq
    rcases List.mem_append.1 hq with hq | hq
    · exact h.summed q hq
    · obtain rfl := List.mem_singleton.1 hq
      simp [PodPower.Summed, gpuPod]

theorem Tidy.addLine {podCache : Table String PodIdentity} {pods : List PodPower} (h : Tidy podCache pods)
    (nodeName : String) (l : GpuLine) : Tidy podCache (addLine PodPower.addGpuSum nodeName podCache pods l) := by
  obtain ⟨p, before, after, rfl, -, heq⟩ | ⟨hnone, uid, identity, hcached, hof, heq⟩ | ⟨-, heq⟩ :=
    addLine_cases PodPower.addGpuSum nodeName podCache pods l
  · rw [heq]
    exact h.addGpuSum l.gpuUw
  · rw [heq]
    exact h.push hnone hcached hof nodeName
  · rw [heq]
    exact h

theorem base_addLine (nodeName : String) (podCache : Table String PodIdentity) (pods : List PodPower) (l : GpuLine) :
    pods.map PodPower.base <+: (addLine PodPower.addGpuSum nodeName podCache pods l).map PodPower.base := by
  obtain ⟨p, before, after, rfl, -, heq⟩ | ⟨-, uid, identity, -, -, heq⟩ | ⟨-, heq⟩ :=
    addLine_cases PodPower.addGpuSum nodeName podCache pods l
  · have hp : (p.addGpuSum l.gpuUw).base = p.base := rfl
    simp [heq, hp]
  · rw [heq, List.map_append]
    exact List.prefix_append _ _
  · rw [heq]

/-- A line makes no names known that were not. -/
theorem known_addLine (nodeName : String) (podCache : Table String PodIdentity) (pods : List PodPower) (l : GpuLine)
    (m : GpuLine) : m.known podCache (addLine PodPower.addGpuSum nodeName podCache pods l) = m.known podCache pods := by
  obtain ⟨p, before, after, rfl, -, heq⟩ | ⟨-, uid, identity, hcached, hof, heq⟩ | ⟨-, heq⟩ :=
    addLine_cases PodPower.addGpuSum nodeName podCache pods l
  · simp [GpuLine.known, heq]
  · -- the new pod's names are in the cache
    obtain ⟨hname, hns⟩ := GpuLine.isOf_iff.1 hof
    have hentry : (⟨uid, identity⟩ : Sigma fun _ => PodIdentity) ∈ podCache.entries := AList.mem_lookup_iff.1 hcached
    have hnew : m.isOf (gpuPod nodeName uid identity l).podName (gpuPod nodeName uid identity l).ns =
        m.isOf identity.name identity.ns := by
      rw [hname, hns]
      rfl
    unfold GpuLine.known
    rw [heq, List.any_append, List.any_cons, List.any_nil, Bool.or_false, hnew]
    cases hm : m.isOf identity.name identity.ns with
    | false => rw [Bool.or_false]
    | true =>
      have hany : (podCache.entries.any fun e => m.isOf e.2.name e.2.ns) = true :=
        List.any_eq_true.2 ⟨_, hentry, hm⟩
      rw [hany, Bool.or_true, Bool.or_true]
  · rw [heq]

/-- A line adds its power if its names are known, and nothing otherwise. -/
theorem sum_addLine (nodeName : String) (podCache : Table String PodIdentity) (pods : List PodPower) (l : GpuLine) :
    ((addLine PodPower.addGpuSum nodeName podCache pods l).map (·.gpuUw)).sum =
      (pods.map (·.gpuUw)).sum + if l.known podCache pods then l.gpuUw else 0 := by
  obtain ⟨p, before, after, rfl, hof, heq⟩ | ⟨-, uid, identity, hcached, hof, heq⟩ | ⟨hunknown, heq⟩ :=
    addLine_cases PodPower.addGpuSum nodeName podCache pods l
  · have hknown : l.known podCache (before ++ p :: after) = true := by simp [GpuLine.known, hof]
    simp [heq, hknown]
    omega
  · have hany : (podCache.entries.any fun e => l.isOf e.2.name e.2.ns) = true :=
      List.any_eq_true.2 ⟨_, AList.mem_lookup_iff.1 hcached, hof⟩
    have hknown : l.known podCache pods = true := by rw [GpuLine.known, hany, Bool.or_true]
    simp [heq, hknown, gpuPod]
  · simp [heq, hunknown]

/-! ## All lines -/

section Lines

variable (nodeName : String) (podCache : Table String PodIdentity) (ls : List GpuLine)

theorem Tidy.foldl {pods : List PodPower} (h : Tidy podCache pods) :
    Tidy podCache (ls.foldl (Agent.addLine PodPower.addGpuSum nodeName podCache) pods) := by
  induction ls generalizing pods with
  | nil => exact h
  | cons l ls ih => exact ih (h.addLine nodeName l)

theorem base_foldl (pods : List PodPower) :
    pods.map PodPower.base <+: (ls.foldl (addLine PodPower.addGpuSum nodeName podCache) pods).map PodPower.base := by
  induction ls generalizing pods with
  | nil => exact List.prefix_rfl
  | cons l ls ih => exact (base_addLine nodeName podCache pods l).trans (ih _)

theorem sum_foldl (pods : List PodPower) :
    ((ls.foldl (addLine PodPower.addGpuSum nodeName podCache) pods).map (·.gpuUw)).sum =
      (pods.map (·.gpuUw)).sum + ((ls.filter (GpuLine.known podCache pods)).map GpuLine.gpuUw).sum := by
  induction ls generalizing pods with
  | nil => simp
  | cons l ls ih =>
    have hknown : GpuLine.known podCache (addLine PodPower.addGpuSum nodeName podCache pods l) =
        GpuLine.known podCache pods :=
      funext fun m => known_addLine nodeName podCache pods l m
    rw [List.foldl_cons, ih, sum_addLine, hknown, List.filter_cons]
    cases l.known podCache pods with
    | false => simp
    | true => simp [Nat.add_assoc]

end Lines

/-! ## In 64 bits -/

/-- The GPU power and the total as a `u64` holds them. -/
def PodPower.wrap (p : PodPower) : PodPower := { p with gpuUw := p.gpuUw % 2 ^ 64, totalUw := p.totalUw % 2 ^ 64 }

theorem PodPower.addGpu_wrap (p : PodPower) (gpuUw : Nat) : p.wrap.addGpu gpuUw = (p.addGpuSum gpuUw).wrap := by
  simp only [addGpu, addGpuSum, wrap, recalculateTotal, add64, PodPower.mk.injEq, true_and, and_true]
  constructor <;> omega

theorem PodPower.wrap_of_lt {p : PodPower} (hsum : p.Summed) (h : p.totalUw < 2 ^ 64) : p.wrap = p := by
  have hgpu : p.gpuUw < 2 ^ 64 := by
    unfold Summed at hsum
    omega
  rw [wrap, Nat.mod_eq_of_lt h, Nat.mod_eq_of_lt hgpu]

theorem gpuPod_wrap (nodeName uid : String) (identity : PodIdentity) (l : GpuLine) :
    (gpuPod nodeName uid identity l).wrap = gpuPod nodeName uid identity l := by
  apply PodPower.wrap_of_lt
  · simp [PodPower.Summed, gpuPod]
  · exact F64.toUnsigned_lt 64 _

theorem map_replaceF {α β : Type} {f : α → β} {replace : α → Option α} {replace' : β → Option β}
    (h : ∀ x, replace' (f x) = (replace x).map f) (xs : List α) :
    (xs.map f).replaceF replace' = (xs.replaceF replace).map f := by
  induction xs with
  | nil => rfl
  | cons x xs ih =>
    rw [List.map_cons, List.replaceF_cons, List.replaceF_cons, h x]
    cases replace x with
    | none => simp [ih]
    | some y => simp

section Wrap

variable (nodeName : String) (podCache : Table String PodIdentity)

/-- A line does to the wrapped list what it does to the sums. -/
theorem addLine_wrap (pods : List PodPower) (l : GpuLine) :
    addLine PodPower.addGpu nodeName podCache (pods.map PodPower.wrap) l =
      (addLine PodPower.addGpuSum nodeName podCache pods l).map PodPower.wrap := by
  have hany : ((pods.map PodPower.wrap).any fun p => l.isOf p.podName p.ns) =
      pods.any fun p => l.isOf p.podName p.ns := by
    rw [List.any_map]
    rfl
  unfold addLine
  rw [hany]
  split
  · apply map_replaceF
    intro p
    by_cases hof : l.isOf p.podName p.ns = true
    · have hwrap : l.isOf p.wrap.podName p.wrap.ns = true := hof
      rw [if_pos hof, if_pos hwrap, PodPower.addGpu_wrap]
      rfl
    · have hwrap : ¬l.isOf p.wrap.podName p.wrap.ns = true := hof
      rw [if_neg hof, if_neg hwrap]
      rfl
  · cases podCache.entries.find? fun e => l.isOf e.2.name e.2.ns with
    | none => rfl
    | some e => rw [List.map_append, List.map_singleton, gpuPod_wrap]

theorem foldl_wrap (ls : List GpuLine) (pods : List PodPower) :
    ls.foldl (addLine PodPower.addGpu nodeName podCache) (pods.map PodPower.wrap) =
      (ls.foldl (addLine PodPower.addGpuSum nodeName podCache) pods).map PodPower.wrap := by
  induction ls generalizing pods with
  | nil => rfl
  | cons l ls ih => rw [List.foldl_cons, List.foldl_cons, addLine_wrap, ih]

end Wrap

/-! ## The pods of a tick -/

theorem mem_mergePods {pods ebpfPods : List PodPower} {p : PodPower} (h : p ∈ mergePods pods ebpfPods) :
    ∃ q ∈ pods, p = q ∨ ∃ cpu mem, p = { q with cpuUw := cpu, memoryUw := mem }.recalculateTotal := by
  obtain ⟨q, hq, rfl⟩ := List.mem_map.1 h
  refine ⟨q, hq, ?_⟩
  split
  · exact .inr ⟨_, _, rfl⟩
  · exact .inl rfl

theorem map_podUid_mergePods (pods ebpfPods : List PodPower) :
    (mergePods pods ebpfPods).map (·.podUid) = pods.map (·.podUid) := by
  unfold mergePods
  rw [List.map_map]
  refine List.map_congr_left fun p _ => ?_
  simp only [Function.comp]
  split <;> rfl

/-- The merge leaves reports of the form in which the scan makes them. -/
theorem mem_reportPods {i : TickInput} {node : NodePower} {p : PodPower} (h : p ∈ i.reportPods node) :
    ∃ uid cpu mem storage io, p = podReport i.nodeName i.podCache uid cpu mem storage io := by
  rw [reportPods_eq] at h
  obtain ⟨q, hq, hp⟩ := mem_mergePods h
  obtain ⟨m, -, rfl⟩ := List.mem_map.1 hq
  rcases hp with rfl | ⟨cpu, mem, rfl⟩
  · exact ⟨_, _, _, _, _, rfl⟩
  · exact ⟨_, cpu, mem, _, _, rfl⟩

theorem reportPods_nodup (i : TickInput) (node : NodePower) : ((i.reportPods node).map (·.podUid)).Nodup := by
  rw [reportPods_eq, map_podUid_mergePods, scanPods, List.map_map]
  exact pods_nodup i

theorem reportPods_tidy (i : TickInput) (node : NodePower) : Tidy i.podCache (i.reportPods node) := by
  refine ⟨reportPods_nodup i node, ?_, ?_⟩
  · intro p hp identity hcached
    obtain ⟨uid, cpu, mem, storage, io, rfl⟩ := mem_reportPods hp
    have hlookup : i.podCache.lookup uid = some identity := hcached
    simp [podReport, hlookup]
  · intro p hp
    obtain ⟨uid, cpu, mem, storage, io, rfl⟩ := mem_reportPods hp
    rfl

theorem reportPods_gpuUw (i : TickInput) (node : NodePower) : ((i.reportPods node).map (·.gpuUw)).sum = 0 := by
  refine List.sum_eq_zero fun x hx => ?_
  obtain ⟨p, hp, rfl⟩ := List.mem_map.1 hx
  obtain ⟨uid, cpu, mem, storage, io, rfl⟩ := mem_reportPods hp
  rfl

/-- The lines whose names the list or the cache has. -/
def TickInput.counted (i : TickInput) (node : NodePower) (body : List Char) : List GpuLine :=
  (gpuLines i.nodeName body).filter (GpuLine.known i.podCache (i.reportPods node))

/-- The report after `add_gpu_power_to_pods`. -/
def TickInput.gpuPods (i : TickInput) (node : NodePower) (body : List Char) : List PodPower :=
  addGpuPowerToPods i.nodeName i.podCache (i.reportPods node) body

/-- What it would be with sums that are not bounded. -/
def TickInput.gpuSums (i : TickInput) (node : NodePower) (body : List Char) : List PodPower :=
  (gpuLines i.nodeName body).foldl (addLine PodPower.addGpuSum i.nodeName i.podCache) (i.reportPods node)

section Merge

variable {i : TickInput} {node : NodePower} (body : List Char)

theorem gpuSums_tidy : Tidy i.podCache (i.gpuSums node body) :=
  (reportPods_tidy i node).foldl i.nodeName i.podCache (gpuLines i.nodeName body)

theorem sum_gpuSums : ((i.gpuSums node body).map (·.gpuUw)).sum = ((i.counted node body).map GpuLine.gpuUw).sum := by
  have h := sum_foldl i.nodeName i.podCache (gpuLines i.nodeName body) (i.reportPods node)
  rwa [reportPods_gpuUw, Nat.zero_add] at h

/-- The code's list is the list of the sums, wrapped. -/
theorem gpuPods_eq (hfit : ∀ p ∈ i.reportPods node, p.totalUw < 2 ^ 64) :
    i.gpuPods node body = (i.gpuSums node body).map PodPower.wrap := by
  have hwrap : (i.reportPods node).map PodPower.wrap = i.reportPods node := by
    refine (List.map_congr_left fun p hp => ?_).trans (List.map_id _)
    exact PodPower.wrap_of_lt ((reportPods_tidy i node).summed p hp) (hfit p hp)
  have h := foldl_wrap i.nodeName i.podCache (gpuLines i.nodeName body) (i.reportPods node)
  rwa [hwrap] at h

/-- Wrapping loses nothing exactly where every total fits. -/
theorem wrap_exact_iff {podCache : Table String PodIdentity} {pods : List PodPower} (h : Tidy podCache pods) :
    ((∀ p ∈ pods, p.wrap.Summed) ∧ (pods.map fun p => p.wrap.gpuUw).sum = (pods.map (·.gpuUw)).sum) ↔
      ∀ p ∈ pods, p.totalUw < 2 ^ 64 := by
  constructor
  · rintro ⟨hsummed, hsum⟩ p hp
    have hle : ∀ q ∈ pods, q.wrap.gpuUw ≤ q.gpuUw := fun q _ => Nat.mod_le _ _
    -- one wrapped power would make the sum smaller
    have hgpu : p.gpuUw ≤ p.wrap.gpuUw := by
      by_contra hlt
      exact absurd hsum (List.sum_lt_sum _ _ hle ⟨p, hp, not_le.1 hlt⟩).ne
    have htotal : p.totalUw % 2 ^ 64 = p.cpuUw + p.memoryUw + p.wrap.gpuUw + p.storageUw + p.ioUw := hsummed p hp
    have hparts : p.totalUw = p.cpuUw + p.memoryUw + p.gpuUw + p.storageUw + p.ioUw := h.summed p hp
    omega
  · intro hfit
    have hwrap : ∀ p ∈ pods, p.wrap = p := fun p hp => PodPower.wrap_of_lt (h.summed p hp) (hfit p hp)
    refine ⟨fun p hp => by rw [hwrap p hp]; exact h.summed p hp, ?_⟩
    exact congrArg List.sum (List.map_congr_left fun p hp => by rw [hwrap p hp])

/-- Nothing is lost, neither by the cast nor in the sums, exactly where each
counted line and each total fits. -/
theorem wrapped_floors_iff :
    ((∀ p ∈ i.gpuSums node body, p.wrap.Summed) ∧
        ((((i.gpuSums node body).map fun p => p.wrap.gpuUw).sum : Nat) : ℕ∞) =
          ((i.counted node body).map GpuLine.floorUw).sum) ↔
      (∀ l ∈ i.counted node body, l.floorUw < ((2 ^ 64 : Nat) : ℕ∞)) ∧
        ∀ p ∈ i.gpuSums node body, p.totalUw < 2 ^ 64 := by
  have hsum := @sum_gpuSums i node body
  have hcast := F64.sum_toUnsigned_eq_iff 64 ((i.counted node body).map GpuLine.microwatts)
  have hle := F64.sum_toUnsigned_le 64 ((i.counted node body).map GpuLine.microwatts)
  rw [List.map_map, List.map_map, List.forall_mem_map] at hcast
  rw [List.map_map, List.map_map] at hle
  rw [← wrap_exact_iff (gpuSums_tidy body), hsum]
  have hwrapped : ((i.gpuSums node body).map fun p => p.wrap.gpuUw).sum ≤
      ((i.counted node body).map GpuLine.gpuUw).sum := by
    rw [← hsum]
    exact List.sum_le_sum fun p _ => Nat.mod_le _ _
  constructor
  · rintro ⟨hsummed, hfloors⟩
    -- wrapped sum, sum of the casts, sum of the floors: the ends are equal
    have hsame : ((i.gpuSums node body).map fun p => p.wrap.gpuUw).sum =
        ((i.counted node body).map GpuLine.gpuUw).sum :=
      hwrapped.antisymm (Nat.cast_le.1 (hle.trans_eq hfloors.symm))
    exact ⟨hcast.1 ((congrArg Nat.cast hsame.symm).trans hfloors), hsummed, hsame⟩
  · rintro ⟨hfits, hsummed, hsame⟩
    exact ⟨hsummed, (congrArg Nat.cast hsame).trans (hcast.2 hfits)⟩

end Merge

/-- For every answer of the exporter and every tick whose own totals fit into
64 bits: uids stay distinct, totals are the sums of their parts modulo
`2 ^ 64`, pods that were there change in nothing but GPU power, and the GPU
power is that of the counted lines after the cast, modulo `2 ^ 64`. The totals
are the sums, and the GPU power is the sum of the lines' floors, exactly when
each counted line and each pod's total with its lines fits. -/
theorem gpu_merge_keeps_report (i : TickInput) (node : NodePower) (body : List Char)
    (hfit : ∀ p ∈ i.reportPods node, p.totalUw < 2 ^ 64) :
    ((i.gpuPods node body).map (·.podUid)).Nodup ∧
    (∀ p ∈ i.gpuPods node body,
      p.totalUw = (p.cpuUw + p.memoryUw + p.gpuUw + p.storageUw + p.ioUw) % 2 ^ 64) ∧
    (i.reportPods node).map PodPower.base <+: (i.gpuPods node body).map PodPower.base ∧
    ((i.gpuPods node body).map (·.gpuUw)).sum ≡ ((i.counted node body).map GpuLine.gpuUw).sum [MOD 2 ^ 64] ∧
    (((∀ p ∈ i.gpuPods node body, p.totalUw = p.cpuUw + p.memoryUw + p.gpuUw + p.storageUw + p.ioUw) ∧
        ((((i.gpuPods node body).map (·.gpuUw)).sum : Nat) : ℕ∞) = ((i.counted node body).map GpuLine.floorUw).sum) ↔
      (∀ l ∈ i.counted node body, l.floorUw < ((2 ^ 64 : Nat) : ℕ∞)) ∧
        ∀ p ∈ i.gpuSums node body, p.totalUw < 2 ^ 64) := by
  have htidy : Tidy i.podCache (i.gpuSums node body) := gpuSums_tidy body
  rw [gpuPods_eq body hfit]
  simp only [List.map_map, List.forall_mem_map]
  refine ⟨htidy.nodup, ?_, base_foldl _ _ _ _, ?_, ?_⟩
  · intro p hp
    have hparts : p.totalUw = p.cpuUw + p.memoryUw + p.gpuUw + p.storageUw + p.ioUw := htidy.summed p hp
    simp only [PodPower.wrap]
    omega
  · rw [← sum_gpuSums]
    have h := List.sum_nat_mod ((i.gpuSums node body).map (·.gpuUw)) (2 ^ 64)
    rw [List.map_map] at h
    exact h.symm
  · exact wrapped_floors_iff body

/-- A tick whose scan finds no process, with one pod in the cache. -/
def trainingPod : TickInput where
  nodeName := "node"
  cpuEstimated := true
  counters := []
  podCache := (∅ : Table String PodIdentity).insert "11111111" ⟨"train", "ml", "", "", "", .application, ∅⟩
  before := {}
  entries := some []
  snapshot := none
  tickCount := 1
  α := 3 / 10
  β := 3 / 2

def powerLine (watts : String) : List Char :=
  "DCGM_FI_DEV_POWER_USAGE\x7bgpu=\"0\",Hostname=\"node\",namespace=\"ml\",pod=\"train\"\x7d ".toList ++ watts.toList

/-- The double next to 8.2 is below it, and so is the product: the line counts
for a microwatt less than it says. -/
theorem gpu_merge_of_one_line :
    ((trainingPod.gpuPods ⟨0, 0, 0, 0⟩ (powerLine "8.2")).map fun p => (p.podUid, p.gpuUw)) =
      [("11111111", 8199999)] ∧
    ((((trainingPod.gpuPods ⟨0, 0, 0, 0⟩ (powerLine "8.2")).map (·.gpuUw)).sum : Nat) : ℕ∞) =
      ((trainingPod.counted ⟨0, 0, 0, 0⟩ (powerLine "8.2")).map GpuLine.floorUw).sum := by
  have hempty : trainingPod.reportPods ⟨0, 0, 0, 0⟩ = [] := by decide +kernel
  have hcounted : (trainingPod.counted ⟨0, 0, 0, 0⟩ (powerLine "8.2")).map GpuLine.microwatts =
      [.finite (8200000 - 1 / 2 ^ 30)] := by decide +kernel
  have hfits : ∀ l ∈ trainingPod.counted ⟨0, 0, 0, 0⟩ (powerLine "8.2"), l.floorUw < ((2 ^ 64 : Nat) : ℕ∞) := by
    intro l hl
    have hmem : l.microwatts ∈ [F64.finite (8200000 - 1 / 2 ^ 30)] := hcounted ▸ List.mem_map_of_mem hl
    rw [GpuLine.floorUw, List.mem_singleton.1 hmem]
    exact Nat.cast_lt.2 (by decide +kernel)
  have htotals : ∀ p ∈ trainingPod.gpuSums ⟨0, 0, 0, 0⟩ (powerLine "8.2"), p.totalUw < 2 ^ 64 := by decide +kernel
  have hmerge := gpu_merge_keeps_report trainingPod ⟨0, 0, 0, 0⟩ (powerLine "8.2") (by simp [hempty])
  exact ⟨by decide +kernel, (hmerge.2.2.2.2.2 ⟨hfits, htotals⟩).2⟩

/-- A line beyond 64 bits gives the largest value, not its floor. -/
theorem huge_line_is_capped :
    ((trainingPod.gpuPods ⟨0, 0, 0, 0⟩ (powerLine "2e13")).map (·.gpuUw)).sum = 2 ^ 64 - 1 ∧
    ((trainingPod.counted ⟨0, 0, 0, 0⟩ (powerLine "2e13")).map GpuLine.floorUw).sum =
      ((2 * 10 ^ 19 : Nat) : ℕ∞) := by
  refine ⟨by decide +kernel, ?_⟩
  have hcounted : (trainingPod.counted ⟨0, 0, 0, 0⟩ (powerLine "2e13")).map GpuLine.microwatts =
      [.finite (2 * 10 ^ 19)] := by decide +kernel
  have hfloors : (trainingPod.counted ⟨0, 0, 0, 0⟩ (powerLine "2e13")).map GpuLine.floorUw =
      ((trainingPod.counted ⟨0, 0, 0, 0⟩ (powerLine "2e13")).map GpuLine.microwatts).map F64.floor := by
    rw [List.map_map]
    rfl
  have hwhole : ⌊(2 * 10 ^ 19 : ℚ)⌋.toNat = 2 * 10 ^ 19 := by decide +kernel
  rw [hfloors, hcounted, List.map_singleton, List.sum_singleton]
  exact congrArg _ hwhole

-- Two such lines wrap.
example : (trainingPod.gpuPods ⟨0, 0, 0, 0⟩ (powerLine "2e13" ++ '\n' :: powerLine "2e13")).map (·.gpuUw) =
    [2 ^ 64 - 2] := by decide +kernel

end Keck.Agent
