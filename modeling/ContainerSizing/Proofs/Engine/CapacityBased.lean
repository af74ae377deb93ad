import ContainerSizing.Proofs.Engine.Basic
import ContainerSizing.Proofs.Statistics
import ContainerSizing.Proofs.Window

namespace ContainerSizing

open Binary64 Statistics

namespace CapacityBased

namespace Demand

def ofResource (tuning : Tuning) (w : Window) : Resource → Except EvaluationError Demand
  | .cpu    => Demand.cpu tuning w
  | .memory => Demand.memory tuning w

def amount (d : Demand) : Setting → Float
  | .requests => d.capacity
  | .limits   => d.most

-- What all pods of an interval use.
def used : Resource → Interval → Float
  | .cpu, i    => i.value .cpuUsage .total + i.value .cpuThrottle .total
  | .memory, i => i.value .memoryRss .total

-- What one pod of an interval uses at most.
def peak : Resource → Interval → Float
  | .cpu, i    => i.value .cpuUsage .maximum + i.value .cpuThrottle .maximum
  | .memory, i => i.value .memoryUsage .maximum

-- The metric that tells how many pods there are.
def podMetric : Resource → Metric
  | .cpu    => .cpuUsage
  | .memory => .memoryUsage

def podRatio (res : Resource) (i : Interval) : Float :=
  ratio (i.value (podMetric res) .total) (i.value (podMetric res) .average)

theorem ofResource_eq_ok_iff {tuning : Tuning} {w : Window} {res : Resource} {d : Demand} :
    ofResource tuning w res = .ok d ↔
      ∃ capacity, percentile tuning.capacityPercentile (w.values (used res)) = .ok capacity ∧
        ∃ most, largest (w.values (peak res)) = .ok most ∧
          ∃ pods, largest (w.values (podRatio res)) = .ok pods ∧ ⟨capacity, most * pods⟩ = d := by
  have : ofResource tuning w res = ofWindow tuning w (used res) (peak res) (podMetric res) := by
    cases res <;> rfl
  rw [this, ofWindow]
  simp only [bind_eq_ok_iff, pure, Except.pure, Except.ok.injEq]
  rfl

theorem isNonneg_used {res : Resource} {i : Interval} {t : Timestamp} (h : i.fault? t = none) :
    IsNonneg (used res i) := by
  cases res
  case cpu => exact (Interval.isNonneg_value h _ _).add (Interval.isNonneg_value h _ _)
  case memory => exact Interval.isNonneg_value h _ _

theorem ofWindow_singleton {tuning : Tuning} {w : Window} {t : Timestamp} {i : Interval}
    {used peak : Interval → Float} {metric : Metric} (h : w.intervals = [(t, i)]) :
    ofWindow tuning w used peak metric =
      .ok ⟨used i, peak i * ratio (i.value metric .total) (i.value metric .average)⟩ := by
  have hv (f : Interval → Float) : w.values f = [f i] := by simp [Window.values, h]
  simp only [ofWindow, hv, percentile_singleton]
  rfl

end Demand

-- The notification that explains why a resource is not sized.
def recordsAreZero : Resource → NotificationKind
  | .cpu    => .cpuRecordsAreZero
  | .memory => .memoryRecordsAreZero

variable {tuning : Tuning} {series : Series} {term : Term} {stop : Timestamp} {w : Window}
variable {r : Recommendation} {s : Setting} {res : Resource} {d cpu memory : Demand}

theorem get?_place (a : Allocation) (res' : Resource) (unit : String) :
    (place a res' d unit).get? s res =
      if res = res' ∧ d.amount s > 0.0 then some ⟨d.amount s, unit⟩ else a.get? s res := by
  cases s <;> by_cases h : res = res' <;> simp only [place, setPositive, Demand.amount] <;>
    split_ifs <;> simp_all [Allocation.get?_set]

theorem recommend_eq_ok (h : recommend tuning w = .ok r) :
    ∃ cpu memory, Demand.cpu tuning w = .ok cpu ∧ Demand.memory tuning w = .ok memory ∧
      r.start = some w.start ∧ r.stop = some w.stop ∧
      r.config =
        (let config := if cpu.isNone tuning.zeroCpu then ∅ else
          place ∅ .cpu cpu (w.firstUnit [.cpuUsage])
        if memory.isNone 0.0 then config else
          place config .memory memory (w.firstUnit [.memoryUsage, .memoryRss])) ∧
      r.notifications =
        (if cpu.isNone tuning.zeroCpu then [.ofKind .cpuRecordsAreZero] else []) ++
          if memory.isNone 0.0 then [.ofKind .memoryRecordsAreZero] else [] := by
  have ⟨cpu, hc, h⟩ := bind_eq_ok_iff.mp h
  have ⟨memory, hm, h⟩ := bind_eq_ok_iff.mp h
  injection h with h
  subst h
  exact ⟨cpu, memory, hc, hm, rfl, rfl, rfl, rfl⟩

theorem recommend_bounds (h : recommend tuning w = .ok r) :
    r.start = some w.start ∧ r.stop = some w.stop ∧ r.hours = w.totalMinutes / 60.0 ∧
      r.pods = w.pods ∧ r.variation = ∅ := by
  have ⟨_, _, h⟩ := bind_eq_ok_iff.mp h
  have ⟨_, _, h⟩ := bind_eq_ok_iff.mp h
  injection h with h
  subst h
  exact ⟨rfl, rfl, rfl, rfl, rfl⟩

section Demands

-- A demand that is none calls for no amount at all.
theorem not_pos_of_isNone (h : d.isNone 0.0) : ¬d.amount s > 0.0 := by
  simp only [Demand.isNone, Bool.and_eq_true, decide_eq_true_eq] at h
  cases s
  case requests => exact (not_pos_iff_le_zero (isNumber_of_le h.left).left).mpr h.left
  case limits => exact (not_pos_iff_le_zero (isNumber_of_le h.right).left).mpr h.right

theorem isNone_iff : d.isNone 0.0 ↔ d.capacity ≤ 0.0 ∧ d.most ≤ 0.0 := by
  simp [Demand.isNone]

theorem isNonneg_capacity (hw : w.IsSound) (h : Demand.ofResource tuning w res = .ok d) :
    IsNonneg d.capacity := by
  obtain ⟨_, hc, _, _, _, _, rfl⟩ := Demand.ofResource_eq_ok_iff.mp h
  exact Window.forall_values hw (fun _ _ => Demand.isNonneg_used) _ (mem_of_percentile hc)

end Demands

section Recommended

-- With the usual threshold, each slot follows its own amount, and the notification follows both.

theorem get?_config (hz : tuning.zeroCpu = 0.0) (h : recommend tuning w = .ok r)
    (hd : Demand.ofResource tuning w res = .ok d) :
    r.config.get? s res = none ↔ ¬d.amount s > 0.0 := by
  have ⟨cpu, memory, hc, hm, _, _, hr, _⟩ := recommend_eq_ok h
  rw [hr, hz]
  cases res
  case cpu =>
    obtain rfl : cpu = d := Except.ok.inj (hc.symm.trans hd)
    by_cases hn : cpu.isNone 0.0
    case pos =>
      have := not_pos_of_isNone hn (s := s)
      split_ifs <;> simp [get?_place, this]
    case neg => split_ifs <;> simp [get?_place]
  case memory =>
    obtain rfl : memory = d := Except.ok.inj (hm.symm.trans hd)
    by_cases hn : memory.isNone 0.0
    case pos =>
      have := not_pos_of_isNone hn (s := s)
      simp only [if_pos hn, this, not_false_iff, iff_true]
      split_ifs <;> simp [get?_place]
    case neg =>
      simp only [if_neg hn]
      split_ifs <;> simp [get?_place]

theorem has_recordsAreZero (hz : tuning.zeroCpu = 0.0) (h : recommend tuning w = .ok r)
    (hd : Demand.ofResource tuning w res = .ok d) :
    r.has (recordsAreZero res) ↔ d.capacity ≤ 0.0 ∧ d.most ≤ 0.0 := by
  have ⟨cpu, memory, hc, hm, _, _, _, hr⟩ := recommend_eq_ok h
  rw [Recommendation.has, hr, hz]
  cases res
  case cpu =>
    obtain rfl : cpu = d := Except.ok.inj (hc.symm.trans hd)
    rw [← isNone_iff]
    cases cpu.isNone 0.0 <;> cases memory.isNone 0.0 <;>
      simp [recordsAreZero, Notification.ofKind, Notification.withMessage]
  case memory =>
    obtain rfl : memory = d := Except.ok.inj (hm.symm.trans hd)
    rw [← isNone_iff]
    cases cpu.isNone 0.0 <;> cases memory.isNone 0.0 <;>
      simp [recordsAreZero, Notification.ofKind, Notification.withMessage]

end Recommended

theorem exists_ofResource (h : recommend tuning w = .ok r) (res : Resource) :
    ∃ d, Demand.ofResource tuning w res = .ok d := by
  have ⟨cpu, memory, hc, hm, _⟩ := recommend_eq_ok h
  cases res
  · exact ⟨cpu, hc⟩
  · exact ⟨memory, hm⟩

-- A recommendation that is not empty is that of a window which ends at `stop`.
theorem evaluate_cases (h : evaluate tuning series term stop = .ok r) :
    r = .notEnoughData ∨
      ∃ w, Window.ofSeries series w.start stop = .ok w ∧ recommend tuning w = .ok r := by
  have ⟨w?, hw, h⟩ := bind_eq_ok_iff.mp h
  cases w?
  case none =>
    injection h with h
    exact .inl h.symm
  case some w =>
    rw [window?] at hw
    split at hw
    case h_1 => cases hw
    case h_2 =>
      have ⟨start, _, hw⟩ := bind_eq_ok_iff.mp hw
      split at hw
      case isTrue => cases hw
      case isFalse =>
        split at hw
        case h_1 w' hs =>
          injection hw with hw
          injection hw with hw
          subst hw
          have ⟨hstart, _⟩ := Window.bounds_of_ofSeries hs
          exact .inr ⟨w', hstart ▸ hs, h⟩
        case h_2 | h_3 => cases hw

theorem exists_window_of_evaluate (h : evaluate tuning series term stop = .ok r)
    (hr : r.start.isSome) :
    ∃ w, Window.ofSeries series w.start stop = .ok w ∧ recommend tuning w = .ok r := by
  refine (evaluate_cases h).resolve_left ?_
  rintro rfl
  cases hr

theorem isFinite_and_value_minutes (term : Term) :
    term.minutes.isFinite ∧ value term.minutes = (term.days.toNat * 1440 : ℕ) := by
  have h : (1440.0 : Float) = .ofNat 1440 := by decide +kernel
  rw [Term.minutes, h]
  exact isFinite_and_value_toFloat_mul term.days (by norm_num)

-- Days are counted back exactly, so the window of a term does not begin after its end.
theorem isMeasure_minutes (term : Term) : isMeasure term.minutes := by
  have ⟨hf, hv⟩ := isFinite_and_value_minutes term
  exact isMeasure_iff.mpr ⟨hf, hv ▸ Nat.cast_nonneg _⟩

theorem start_le {begin : Timestamp} (h : start term stop = .ok begin) : begin ≤ stop := by
  rw [start] at h
  split at h
  case h_1 hs =>
    injection h with h
    exact h ▸ Timestamp.minutesBefore?_le (isMeasure_minutes term) hs
  case h_2 => cases h

theorem evaluate_of_window {earliest begin : Timestamp} (he : series.earliest? = some earliest)
    (hb : start term stop = .ok begin) (hd : ¬(begin < earliest ∧ term.days ≠ 1))
    (hw : Window.ofSeries series begin stop = .ok w) :
    evaluate tuning series term stop = recommend tuning w := by
  have : window? series term stop = .ok (some w) := by
    simp only [window?, he]
    refine bind_eq_ok_iff.mpr ⟨begin, hb, ?_⟩
    rw [if_neg hd, hw]
    rfl
  rw [evaluate, this]
  rfl

end CapacityBased

namespace Engine

open CapacityBased

variable {engine : Engine} {series : Series} {stop : Timestamp} {term : Term}

-- A request goes missing without a notification when there is a limit, and a limit goes missing
-- without one when there is a request, or when the limit is no number at all.
theorem recommend_silent_iff {tuning : Tuning} {policy : Policy} {label : String} {r : Recommendation}
    (he : build .capacityBased tuning policy = .ok engine) (hz : tuning.zeroCpu = 0.0)
    (hr : (engine.recommend series stop).get? label = some r) (hs : r.start.isSome) :
    ∃ w, r.start = some w.start ∧ Window.ofSeries series w.start stop = .ok w ∧
      ∀ res, ∃ d, Demand.ofResource tuning w res = .ok d ∧
        (∀ s, r.config.get? s res = none ↔ ¬d.amount s > 0.0) ∧
        (r.has (recordsAreZero res) ↔ d.capacity ≤ 0.0 ∧ d.most ≤ 0.0) ∧
        ((r.config.get? .requests res = none ↔ r.has (recordsAreZero res)) ↔
          d.capacity > 0.0 ∨ d.most ≤ 0.0) ∧
        ((r.config.get? .limits res = none ↔ r.has (recordsAreZero res)) ↔
          d.most > 0.0 ∨ d.capacity ≤ 0.0 ∧ d.most ≤ 0.0) := by
  have ⟨ht, hp, he⟩ := build_eq_ok_iff.mp he
  have hk : engine.kind = .capacityBased := he ▸ rfl
  have ht : engine.tuning = tuning := he ▸ rfl
  have hd : engine.policy.HasDistinctLabels := Policy.hasDistinctLabels_of_fault? (he ▸ hp)
  have ⟨term, _, _, h⟩ := exists_evaluate hd hr hs
  rw [evaluate_capacityBased hk, ht] at h
  have ⟨w, hw, h⟩ := exists_window_of_evaluate h hs
  have ⟨_, _, _, _, hstart, _⟩ := recommend_eq_ok h
  refine ⟨w, hstart, hw, ?_⟩
  intro res
  have ⟨d, hd⟩ := exists_ofResource h res
  have hconfig (s : Setting) := get?_config (s := s) hz h hd
  have hhas := has_recordsAreZero hz h hd
  -- a limit can be no number at all, a request cannot
  have hcapacity := not_pos_iff_le_zero (isNonneg_capacity (Window.isSound_of_ofSeries hw) hd).isNumber
  have hmost : d.most ≤ 0.0 → ¬d.most > 0.0 :=
    fun h => (not_pos_iff_le_zero (isNumber_of_le h).left).mpr h
  refine ⟨d, hd, hconfig, hhas, ?requests, ?limits⟩
  case requests =>
    rw [hconfig, hhas, Demand.amount]
    by_cases hc : d.capacity > 0.0
    · simp [hc, mt hcapacity.mpr (not_not.mpr hc)]
    · simp [hc, hcapacity.mp hc]
  case limits =>
    rw [hconfig, hhas, Demand.amount]
    by_cases hm : d.most > 0.0
    · simp [hm, mt hmost (not_not.mpr hm)]
    · simp [hm]

-- An hour in which only the resident memory was measured.
def residentHour : Interval :=
  (Interval.bare 60.0).withMetric .memoryRss ⟨1.0, 1.0, 1.0, 1.0, "MiB"⟩

def residentSeries : Series :=
  SortedMap.ofList [(default, residentHour)]

theorem evaluate_residentSeries :
    ∃ w r, w.intervals = [(default, residentHour)] ∧
      CapacityBased.recommend (standard .capacityBased).tuning w = .ok r ∧
      (standard .capacityBased).evaluate residentSeries ⟨"short_term", 1, 30.0⟩ default = .ok r := by
  obtain ⟨begin, hb⟩ := Option.isSome_iff_exists.mp (show ((default : Timestamp).minutesBefore?
    (Term.minutes ⟨"short_term", 1, 30.0⟩)).isSome by decide +kernel)
  have hle : begin ≤ default := Timestamp.minutesBefore?_le (by decide +kernel) hb
  have he : residentSeries.entries = [(default, residentHour)] := rfl
  have hw : Window.ofSeries residentSeries begin default =
      .ok ⟨begin, default, residentSeries.range begin default⟩ := by
    apply Window.ofSeries_eq_ok hle (he ▸ List.mem_cons_self) hle Timestamp.le_rfl
    intro t i hm _ _
    obtain ⟨rfl, rfl⟩ := Prod.mk.inj (List.mem_singleton.mp (he ▸ hm))
    exact Option.isNone_iff_eq_none.mp (by decide +kernel)
  have hi : residentSeries.range begin default = [(default, residentHour)] := by
    have := Timestamp.not_lt_iff_le.mpr hle
    simp [Series.range, he, this, hle, Timestamp.le_rfl]
  have hs : CapacityBased.start ⟨"short_term", 1, 30.0⟩ default = .ok begin := by
    rw [CapacityBased.start, hb]
  obtain ⟨r, hr⟩ : ∃ r, CapacityBased.recommend (standard .capacityBased).tuning
      ⟨begin, default, residentSeries.range begin default⟩ = .ok r :=
    ⟨_, bind_eq_ok_iff.mpr ⟨_, Demand.ofWindow_singleton hi,
      bind_eq_ok_iff.mpr ⟨_, Demand.ofWindow_singleton hi, rfl⟩⟩⟩
  refine ⟨_, r, hi, hr, ?_⟩
  rw [evaluate_capacityBased rfl, evaluate_of_window rfl hs (fun h => h.right rfl) hw]
  exact hr

theorem recommend_residentSeries :
    ∃ r, ((standard .capacityBased).recommend residentSeries default).get? "short_term" = some r ∧
      r.start.isSome ∧ r.config.get? .limits .memory = none ∧ ¬r.has .memoryRecordsAreZero := by
  have hd := hasDistinctLabels_standard .capacityBased
  have ht := shortTerm_mem_standard .capacityBased
  have ⟨w, r, hi, hr, he⟩ := evaluate_residentSeries
  have ⟨_, _, _, _, hs, _⟩ := recommend_eq_ok hr
  have hm : Demand.ofResource (standard .capacityBased).tuning w .memory = .ok ⟨1.0, 0.0 * 0.0⟩ :=
    Demand.ofWindow_singleton hi
  refine ⟨r, (get?_recommend hd ht).trans (congrArg some (outcome_of_ok he)), ?_, ?_, ?_⟩
  · rw [hs]
    rfl
  · rw [get?_config rfl hr hm]
    decide +kernel
  · exact (has_recordsAreZero rfl hr hm).not.mpr (by decide +kernel)

theorem recommend_silent_iff_residentSeries :
    build .capacityBased default .standard = .ok (standard .capacityBased) ∧
    (default : Tuning).zeroCpu = 0.0 ∧
    ∃ r, ((standard .capacityBased).recommend residentSeries default).get? "short_term" = some r ∧
      r.start.isSome ∧
      ∃ w, r.start = some w.start ∧ Window.ofSeries residentSeries w.start default = .ok w := by
  have ⟨r, hr, hs, _⟩ := recommend_residentSeries
  have ⟨w, hw, hw', _⟩ := recommend_silent_iff (build_standard .capacityBased) rfl hr hs
  exact ⟨build_standard .capacityBased, rfl, r, hr, hs, w, hw, hw'⟩

-- The limit of the resident memory is left out without a word.
theorem not_forall_omission_notified :
    ¬∀ (tuning : Tuning) (policy : Policy) (engine : Engine) (series : Series) (stop : Timestamp)
      (label : String) (r : Recommendation),
      build .capacityBased tuning policy = .ok engine →
      tuning.thresholds = (default : Tuning).thresholds →
      (engine.recommend series stop).get? label = some r → r.start.isSome →
      ∀ s res, r.config.get? s res = none ↔ r.has (recordsAreZero res) := by
  intro h
  have ⟨r, hr, hs, hl, hn⟩ := recommend_residentSeries
  exact hn ((h _ _ _ _ _ _ r (build_standard .capacityBased) rfl hr hs .limits .memory).mp hl)

end Engine

end ContainerSizing
