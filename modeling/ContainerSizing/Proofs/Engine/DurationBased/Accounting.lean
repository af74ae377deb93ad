import ContainerSizing.Proofs.Engine.DurationBased.Sizing

namespace ContainerSizing

open Binary64

section Reasons

variable {res res' : Resource} {kind : NotificationKind}

-- Why a resource may be missing from a recommendation.
def Resource.reasons : Resource → List NotificationKind
  | .cpu    => [.cpuRecordsAreZero, .cpuRecordsAreIdle]
  | .memory => [.memoryRecordsAreZero]

theorem Resource.eq_of_mem_reasons (h : kind ∈ res.reasons) (h' : kind ∈ res'.reasons) :
    res = res' := by
  cases res <;> cases res' <;> cases kind <;> simp [reasons] at h h' ⊢

theorem Resource.notSet_not_mem_reasons {s : Setting} : .notSet s res ∉ res'.reasons := by
  cases s <;> cases res <;> cases res' <;> decide

-- The reasons that a recommendation gives for lacking a resource, each as often as it is given.
def Recommendation.reasons (r : Recommendation) (res : Resource) : List NotificationKind :=
  (r.notifications.map Notification.kind).filter (· ∈ res.reasons)

theorem Recommendation.has_iff_mem_reasons {r : Recommendation} (h : kind ∈ res.reasons) :
    r.has kind ↔ kind ∈ r.reasons res := by
  simp [has, reasons, h]

end Reasons

namespace DurationBased

section Slots

variable {f : Setting → Resource → Option Quantity} {step : Allocation → Setting × Resource → Allocation}
variable {s : Setting} {res : Resource} {z : Sizings} {term : Term} {w : Window}

-- Steps that set a slot to what `f` gives for it, if anything, leave the other slots alone.
theorem get?_foldl (a : Allocation) (l : List (Setting × Resource))
    (h : ∀ a s' res', (step a (s', res')).get? s res =
      if s = s' ∧ res = res' then (f s res).or (a.get? s res) else a.get? s res) :
    (l.foldl step a).get? s res = if (s, res) ∈ l then (f s res).or (a.get? s res) else a.get? s res := by
  induction l generalizing a
  case nil => rfl
  case cons slot l hi =>
    obtain ⟨s', res'⟩ := slot
    rw [List.foldl_cons, hi, h]
    by_cases he : s = s' ∧ res = res'
    case pos => cases f s res <;> simp [he]
    case neg => simp [he]

theorem get?_foldl_slots
    (h : ∀ a s' res', (step a (s', res')).get? s res =
      if s = s' ∧ res = res' then (f s res).or (a.get? s res) else a.get? s res) :
    (slots.foldl step ∅).get? s res = f s res := by
  rw [get?_foldl ∅ slots h, if_pos (mem_slots s res), Allocation.get?_empty, Option.or_none]

theorem get?_config : (z.recommendation term w).config.get? s res = z.recommended? res := by
  apply get?_foldl_slots (f := fun _ res => z.recommended? res)
  intro a s' res'
  by_cases he : s = s' ∧ res = res'
  case pos =>
    obtain ⟨rfl, rfl⟩ := he
    cases hq : z.recommended? res <;> simp [hq, Allocation.get?_set]
  case neg => cases hq : z.recommended? res' <;> simp [hq, Allocation.get?_set, he]

theorem get?_variation :
    (z.recommendation term w).variation.get? s res =
      (z.recommended? res).bind fun q =>
        (current? w w.stop s res).map fun current => ⟨q.amount - current, q.unit⟩ := by
  apply get?_foldl_slots (f := fun s res => (z.recommended? res).bind fun q =>
    (current? w w.stop s res).map fun current => ⟨q.amount - current, q.unit⟩)
  intro a s' res'
  by_cases he : s = s' ∧ res = res'
  case pos =>
    obtain ⟨rfl, rfl⟩ := he
    cases hq : z.recommended? res <;> cases hc : current? w w.stop s res <;>
      simp [hq, hc, Allocation.get?_set]
  case neg =>
    cases hq : z.recommended? res' <;> cases hc : current? w w.stop s' res' <;>
      simp [hq, hc, Allocation.get?_set, he]

end Slots

-- The order of all explanations: reasons of the sizings first, then the settings that are not there.
def explanations : List NotificationKind :=
  [.cpuRecordsAreZero, .cpuRecordsAreIdle, .memoryRecordsAreZero, .cpuRequestNotSet,
    .memoryRequestNotSet, .cpuLimitNotSet, .memoryLimitNotSet]

-- What an evaluated recommendation owes to the series and to itself.
structure Accounted (series : Series) (stop : Timestamp) (r : Recommendation) : Prop where
  amount_pos     : ∀ s res q, r.config.get? s res = some q → q.amount > 0.0
  limits_eq      : ∀ res, r.config.get? .limits res = r.config.get? .requests res
  cpu_none       : r.config.get? .requests .cpu = none ↔
    Xor (r.has .cpuRecordsAreZero) (r.has .cpuRecordsAreIdle)
  cpu_some       : (r.config.get? .requests .cpu).isSome ↔
    ¬r.has .cpuRecordsAreZero ∧ ¬r.has .cpuRecordsAreIdle
  memory_none    : r.config.get? .requests .memory = none ↔ r.has .memoryRecordsAreZero
  notSet         : ∀ s res, r.has (.notSet s res) ↔
    ∀ i, series.get? stop = some i → i.metrics (settingMetric s res) = none
  variation_some : ∀ s res, (r.variation.get? s res).isSome ↔
    (r.config.get? s res).isSome ∧ ¬r.has (.notSet s res)
  variation_eq   : ∀ s res v, r.variation.get? s res = some v → ∃ q i a,
    r.config.get? s res = some q ∧ series.get? stop = some i ∧
    i.metrics (settingMetric s res) = some a ∧ v = ⟨q.amount - a.average, q.unit⟩ ∧
    (v.amount > 0.0 ↔ q.amount > a.average)
  notifications  : ∃ kinds : List NotificationKind, r.notifications = kinds.map .ofKind ∧ kinds.Nodup ∧
    kinds.Sublist explanations

section Sizings

variable {z : Sizings} {term : Term} {w : Window} {t : Timestamp} {s : Setting} {res : Resource}
variable {kind : NotificationKind}

structure Sizings.IsSizings (z : Sizings) : Prop where
  cpu    : IsSizing [.cpuRecordsAreZero, .cpuRecordsAreIdle] z.cpu
  memory : IsSizing [.memoryRecordsAreZero] z.memory

theorem sizings_of_recommend {tuning : Tuning} {r : Recommendation} (ht : tuning.fault? = none)
    (hw : w.IsSound) (h : recommend tuning term w = .ok r) :
    ∃ cpu memory, sizeCpu tuning w = .ok cpu ∧ sizeMemory tuning w = .ok memory ∧
      Sizings.IsSizings ⟨cpu, memory⟩ ∧ Sizings.recommendation ⟨cpu, memory⟩ term w = r := by
  have ⟨cpu, hc, memory, hm, h⟩ := recommend_eq_ok_iff.mp h
  exact ⟨cpu, memory, hc, hm, ⟨isSizing_cpu ht hw hc, isSizing_memory ht hw hm⟩, h⟩

theorem Sizings.IsSizings.amount {q : Quantity} (h : z.IsSizings) (hq : z.get res = .ok q) :
    IsNonneg q.amount ∧ q.amount > 0.0 := by
  cases res
  · exact h.cpu.amount q hq
  · exact h.memory.amount q hq

theorem Sizings.IsSizings.reason (h : z.IsSizings) (res : Resource) (hz : z.get res = .error kind) :
    kind ∈ res.reasons := by
  cases res
  · exact h.cpu.reason kind hz
  · exact h.memory.reason kind hz

theorem recommended?_eq_some_iff {q : Quantity} (h : z.IsSizings) :
    z.recommended? res = some q ↔ z.get res = .ok q := by
  rw [Sizings.recommended?]
  cases hq : z.get res
  case error => simp
  case ok q' => simp [if_pos (h.amount hq).right]

theorem recommended?_eq_none_iff (h : z.IsSizings) :
    z.recommended? res = none ↔ ∃ kind, z.get res = .error kind := by
  rw [Sizings.recommended?]
  cases hq : z.get res
  case error => simp
  case ok q' => simp [if_pos (h.amount hq).right]

theorem cpu_cases (h : z.IsSizings) :
    (∃ q, z.cpu = .ok q) ∨ z.cpu = .error .cpuRecordsAreZero ∨ z.cpu = .error .cpuRecordsAreIdle := by
  cases hz : z.cpu
  case ok q => exact .inl ⟨q, rfl⟩
  case error kind =>
    have := h.cpu.reason kind hz
    simp only [List.mem_cons, List.not_mem_nil, or_false] at this
    rcases this with rfl | rfl
    · exact .inr (.inl rfl)
    · exact .inr (.inr rfl)

theorem has_recommendation :
    (z.recommendation term w).has kind ↔ kind ∈ z.notifications w w.stop := by
  simp only [Recommendation.has, Sizings.recommendation, List.any_map, List.any_eq_true]
  constructor
  case mp =>
    rintro ⟨k, hk, he⟩
    exact of_decide_eq_true he ▸ hk
  case mpr => exact fun hk => ⟨kind, hk, decide_eq_true rfl⟩

theorem mem_notifications :
    kind ∈ z.notifications w t ↔
      z.cpu = .error kind ∨ z.memory = .error kind ∨
        ∃ s res, current? w t s res = none ∧ NotificationKind.notSet s res = kind := by
  have mem_reason? (z : Sizing) : kind ∈ Sizings.reason? z ↔ z = .error kind := by
    cases z <;> simp [Sizings.reason?, eq_comm]
  have mem_slots (s : Setting) (res : Resource) := mem_slots s res
  simp only [Sizings.notifications, List.mem_append, mem_reason?, List.mem_filterMap, or_assoc]
  simp [mem_slots]

theorem has_notSet (h : z.IsSizings) :
    (z.recommendation term w).has (.notSet s res) ↔ current? w w.stop s res = none := by
  rw [has_recommendation, mem_notifications]
  have hc : z.cpu ≠ .error (.notSet s res) :=
    fun he => Resource.notSet_not_mem_reasons (h.reason .cpu he)
  have hm : z.memory ≠ .error (.notSet s res) :=
    fun he => Resource.notSet_not_mem_reasons (h.reason .memory he)
  simp only [hc, hm, false_or]
  constructor
  case mp =>
    intro ⟨s', res', hn, he⟩
    cases s <;> cases res <;> cases s' <;> cases res' <;> first | exact hn | cases he
  case mpr => exact fun hn => ⟨s, res, hn, rfl⟩

theorem notSet_sublist (l : List (Setting × Resource)) :
    (l.filterMap fun (s, res) =>
      if (current? w t s res).isNone then some (NotificationKind.notSet s res) else none).Sublist
        (l.map fun (s, res) => .notSet s res) := by
  induction l
  case nil => exact .slnil
  case cons slot l hi =>
    obtain ⟨s, res⟩ := slot
    rw [List.map_cons]
    cases hc : (current? w t s res).isNone
    · rw [List.filterMap_cons_none (by simp [hc])]
      exact hi.cons _
    · rw [List.filterMap_cons_some (b := .notSet s res) (by simp [hc])]
      exact hi.cons_cons _

-- Every part of the notifications keeps to its place.
theorem notifications_sublist (h : z.IsSizings) : (z.notifications w t).Sublist explanations := by
  have reason {z : Sizing} {reasons : List NotificationKind} (h : IsSizing reasons z) :
      (Sizings.reason? z).Sublist reasons := by
    cases z
    case ok => exact List.nil_sublist _
    case error kind => exact List.singleton_sublist.mpr (h.reason kind rfl)
  exact ((reason h.cpu).append (reason h.memory)).append (notSet_sublist slots)

theorem Sizings.IsSizings.filter_reason? (h : z.IsSizings) (res' : Resource) :
    (reason? (z.get res')).filter (· ∈ res.reasons) =
      if res' = res then reason? (z.get res) else [] := by
  split_ifs with he
  case pos =>
    subst he
    apply List.filter_eq_self.mpr
    intro kind hk
    cases hz : z.get res' <;> rw [hz] at hk
    case ok => cases hk
    case error =>
      obtain rfl := List.mem_singleton.mp hk
      exact decide_eq_true (h.reason _ hz)
  case neg =>
    apply List.filter_eq_nil_iff.mpr
    intro kind hk hr
    cases hz : z.get res' <;> rw [hz] at hk
    case ok => cases hk
    case error =>
      obtain rfl := List.mem_singleton.mp hk
      exact he (Resource.eq_of_mem_reasons (h.reason _ hz) (of_decide_eq_true hr))

-- Of all notifications only that of its own sizing is a reason for lacking a resource.
theorem reasons_recommendation (h : z.IsSizings) (res : Resource) :
    (z.recommendation term w).reasons res = Sizings.reason? (z.get res) := by
  have hkinds : (z.recommendation term w).notifications.map Notification.kind =
      z.notifications w w.stop := by
    simp [Sizings.recommendation, Notification.ofKind, Notification.withMessage, Function.comp_def]
  have hnot : (slots.filterMap fun (s, res) => if (current? w w.stop s res).isNone then
      some (NotificationKind.notSet s res) else none).filter (· ∈ res.reasons) = [] := by
    apply List.filter_eq_nil_iff.mpr
    intro kind hk hr
    obtain ⟨_, _, rfl⟩ := List.mem_map.mp ((notSet_sublist slots).subset hk)
    exact Resource.notSet_not_mem_reasons (of_decide_eq_true hr)
  have hcpu : (Sizings.reason? z.cpu).filter (· ∈ res.reasons) = _ := h.filter_reason? .cpu
  have hmemory : (Sizings.reason? z.memory).filter (· ∈ res.reasons) = _ := h.filter_reason? .memory
  rw [Recommendation.reasons, hkinds, Sizings.notifications, List.filter_append, List.filter_append,
    hcpu, hmemory, hnot]
  cases res <;> simp

-- A resource is recommended wherever there is a place for it, or missing for one reason.

theorem recommendation_of_ok (term : Term) (w : Window) {q : Quantity} (h : z.IsSizings)
    (res : Resource) (hz : z.get res = .ok q) :
    (∀ s, (z.recommendation term w).config.get? s res = some q) ∧
      (z.recommendation term w).reasons res = [] := by
  rw [reasons_recommendation h, hz]
  exact ⟨fun s => get?_config.trans ((recommended?_eq_some_iff h).mpr hz), rfl⟩

theorem recommendation_of_error (term : Term) (w : Window) (h : z.IsSizings) (res : Resource)
    (hz : z.get res = .error kind) :
    (∀ s, (z.recommendation term w).config.get? s res = none) ∧
      (z.recommendation term w).reasons res = [kind] := by
  rw [reasons_recommendation h, hz]
  exact ⟨fun s => get?_config.trans ((recommended?_eq_none_iff h).mpr ⟨kind, hz⟩), rfl⟩

theorem has_reason_iff (h : z.IsSizings) (res : Resource) (hk : kind ∈ res.reasons) :
    (z.recommendation term w).has kind ↔ z.get res = .error kind := by
  rw [Recommendation.has_iff_mem_reasons hk, reasons_recommendation h]
  cases z.get res <;> simp [Sizings.reason?, eq_comm]

theorem has_memoryRecords_iff (h : z.IsSizings) :
    (z.recommendation term w).has .memoryRecordsAreZero ↔ ∃ kind, z.memory = .error kind := by
  rw [has_reason_iff h .memory (by decide)]
  constructor
  case mp => exact fun he => ⟨_, he⟩
  case mpr =>
    intro ⟨kind, he⟩
    obtain rfl := List.mem_singleton.mp (h.memory.reason _ he)
    exact he

theorem current?_eq_none_iff {series : Series} {start stop : Timestamp} (hle : start ≤ stop)
    (hw : w.intervals = series.range start stop) :
    current? w stop s res = none ↔
      ∀ i, series.get? stop = some i → i.metrics (settingMetric s res) = none := by
  simp only [current?, Window.get?, hw, Series.find?_range hle, Option.bind_eq_none_iff,
    Option.map_eq_none_iff]

theorem current?_eq_some_iff {series : Series} {start stop : Timestamp} {x : Float}
    (hle : start ≤ stop) (hw : w.intervals = series.range start stop) :
    current? w stop s res = some x ↔
      ∃ i a, series.get? stop = some i ∧ i.metrics (settingMetric s res) = some a ∧ a.average = x := by
  simp only [current?, Window.get?, hw, Series.find?_range hle, Option.bind_eq_some_iff,
    Option.map_eq_some_iff]
  constructor
  · exact fun ⟨i, hi, a, ha, hx⟩ => ⟨i, a, hi, ha, hx⟩
  · exact fun ⟨i, a, hi, ha, hx⟩ => ⟨i, hi, a, ha, hx⟩

end Sizings

theorem accounted_recommendation {z : Sizings} {term : Term} {w : Window} {series : Series}
    (hz : z.IsSizings) (hle : w.start ≤ w.stop) (hs : w.IsSound)
    (hw : w.intervals = series.range w.start w.stop) :
    Accounted series w.stop (z.recommendation term w) where
  amount_pos s res q h := by
    have h := get?_config.symm.trans h
    exact (hz.amount ((recommended?_eq_some_iff hz).mp h)).right
  limits_eq res := get?_config.trans get?_config.symm
  cpu_none := by
    rw [get?_config, recommended?_eq_none_iff hz, has_reason_iff hz .cpu (by decide),
      has_reason_iff hz .cpu (by decide)]
    change (∃ kind, z.cpu = .error kind) ↔ _
    rcases cpu_cases hz with ⟨q, h⟩ | h | h <;> simp [Sizings.get, h, Xor]
  cpu_some := by
    rw [get?_config, Option.isSome_iff_ne_none, ne_eq, recommended?_eq_none_iff hz,
      has_reason_iff hz .cpu (by decide), has_reason_iff hz .cpu (by decide)]
    change (¬∃ kind, z.cpu = .error kind) ↔ _
    rcases cpu_cases hz with ⟨q, h⟩ | h | h <;> simp [Sizings.get, h]
  memory_none := by
    rw [has_memoryRecords_iff hz, get?_config]
    exact recommended?_eq_none_iff hz
  notSet s res := (has_notSet hz).trans (current?_eq_none_iff hle hw)
  variation_some s res := by
    rw [has_notSet hz, get?_config, get?_variation]
    cases z.recommended? res <;> cases current? w w.stop s res <;> simp
  variation_eq s res v h := by
    have h := get?_variation.symm.trans h
    have ⟨q, hq, h⟩ := Option.bind_eq_some_iff.mp h
    have ⟨x, hx, hv⟩ := Option.map_eq_some_iff.mp h
    have ⟨i, a, hi, ha, hx⟩ := (current?_eq_some_iff hle hw).mp hx
    subst hx hv
    refine ⟨q, i, a, get?_config.trans hq, hi, ha, rfl, ?_⟩
    have hn := (hz.amount ((recommended?_eq_some_iff hz).mp hq)).left
    -- the current value lies in the window, so it has been checked
    have hm : (w.stop, i) ∈ w.intervals := by
      rw [hw, Series.mem_range_iff hle]
      exact ⟨SortedMap.mem_entries_iff.mpr hi, hle, Timestamp.le_rfl⟩
    have ⟨_, hf⟩ := Interval.fault?_eq_none_iff.mp (hs w.stop i hm)
    exact sub_pos_iff hn (isMeasure_iff.mp (hf _ a ha .average)).left
  notifications := ⟨_, rfl, (notifications_sublist hz).nodup (by decide), notifications_sublist hz⟩

theorem accounted_of_evaluate {tuning : Tuning} {series : Series} {term : Term} {stop : Timestamp}
    {r : Recommendation} (ht : tuning.fault? = none)
    (h : evaluate tuning series term stop = .ok r) (hr : r.start.isSome) :
    Accounted series stop r := by
  have ⟨w, hle, hw, hr⟩ := exists_window_of_evaluate h hr
  have ⟨_, hstop⟩ := Window.bounds_of_ofSeries hw
  have hi := Window.intervals_of_ofSeries hw
  have hsound := Window.isSound_of_ofSeries hw
  have ⟨_, _, _, _, hz, hr⟩ := sizings_of_recommend ht hsound hr
  subst hr hstop
  exact accounted_recommendation hz hle hsound hi

end DurationBased

namespace Engine

open DurationBased

end Engine

end ContainerSizing
