import ContainerSizing.Proofs.Engine.Locality
import ContainerSizing.Proofs.Timestamp.Span

namespace ContainerSizing

open Binary64 Statistics

namespace CapacityBased

variable {tuning : Tuning} {series : Series} {term : Term} {begin stop : Timestamp} {w : Window}
variable {r : Recommendation} {error : EvaluationError}

-- The days of a term are counted back exactly.
theorem minutesBefore?_minutes (term : Term) (stop : Timestamp) :
    stop.minutesBefore? term.minutes = stop.daysBefore? term.days.toNat :=
  have ⟨hf, hv⟩ := isFinite_and_value_minutes term
  Timestamp.minutesBefore?_eq_daysBefore? hf hv term.days.toNat_lt

theorem start_eq_ok_iff : start term stop = .ok begin ↔ stop.daysBefore? term.days.toNat = some begin := by
  rw [start, minutesBefore?_minutes]
  cases stop.daysBefore? term.days.toNat <;> simp

theorem start_eq_error (h : stop.daysBefore? term.days.toNat = none) :
    start term stop = .error (.windowOutOfRange stop term.minutes) := by
  rw [start, minutesBefore?_minutes, h]

section Total

-- A window with intervals calls for something.

theorem exists_demand (tuning : Tuning) (res : Resource) (h : w.intervals ≠ []) :
    ∃ d, Demand.ofResource tuning w res = .ok d := by
  have ⟨capacity, _, hc⟩ :=
    percentile_ne_error (p := tuning.capacityPercentile) (Window.values_ne_nil h (Demand.used res))
  have ⟨most, hm⟩ := exists_largest (Window.values_ne_nil h (Demand.peak res))
  have ⟨pods, hp⟩ := exists_largest (Window.values_ne_nil h (Demand.podRatio res))
  exact ⟨_, Demand.ofResource_eq_ok_iff.mpr ⟨capacity, hc, most, hm, pods, hp, rfl⟩⟩

theorem exists_recommend (tuning : Tuning) (h : w.intervals ≠ []) : ∃ r, recommend tuning w = .ok r := by
  have ⟨cpu, hc⟩ := exists_demand tuning .cpu h
  have ⟨memory, hm⟩ := exists_demand tuning .memory h
  exact ⟨_, bind_eq_ok_iff.mpr ⟨cpu, hc, bind_eq_ok_iff.mpr ⟨memory, hm, rfl⟩⟩⟩

end Total

-- Why there is no window from `begin` on: the series is too young, or holds nothing in it.
inductive Lacks (series : Series) (term : Term) (stop begin : Timestamp) : Prop where
  | age {earliest : Timestamp} (he : series.earliest? = some earliest) (h : begin < earliest)
      (hd : term.days ≠ 1)
  | intervals (h : ∀ t i, (t, i) ∈ series.entries → begin ≤ t → ¬t ≤ stop)

-- Some interval of the window is not what it should be.
def IsSpoiled (series : Series) (stop begin : Timestamp) : Prop :=
  ∃ t i, (t, i) ∈ series.entries ∧ begin ≤ t ∧ t ≤ stop ∧ (i.fault? t).isSome

theorem earliest?_eq_none_iff : series.earliest? = none ↔ series.entries = [] := by
  simp [Series.earliest?, SortedMap.keys]

theorem reachesBack_of_not_lacks (h : ¬Lacks series term stop begin) :
    term.days = 1 ∨ series.ReachesBack begin := by
  by_contra hn
  have ⟨hd, hr⟩ := not_or.mp hn
  cases he : series.earliest?
  case none =>
    refine h (.intervals fun t i hm => ?_)
    rw [earliest?_eq_none_iff.mp he] at hm
    cases hm
  case some earliest => exact h (.age he (not_not.mp (mt (reachesBack_iff he).mpr hr)) hd)

section Evaluate

variable (tuning : Tuning)

theorem evaluate_of_empty (h : series.entries = []) :
    evaluate tuning series term stop = .ok .notEnoughData := by
  rw [evaluate, window?, earliest?_eq_none_iff.mpr h]
  rfl

theorem evaluate_of_outOfRange (h : series.entries ≠ [])
    (hb : stop.daysBefore? term.days.toNat = none) :
    evaluate tuning series term stop = .error (.windowOutOfRange stop term.minutes) := by
  have ⟨_, he⟩ := Option.ne_none_iff_exists'.mp (mt earliest?_eq_none_iff.mp h)
  simp only [evaluate, window?, he, start_eq_error hb, bind, Except.bind]

variable (hb : stop.daysBefore? term.days.toNat = some begin)
include hb

theorem evaluate_eq_of_not_lacks (h : ¬Lacks series term stop begin) :
    evaluate tuning series term stop = Window.ofSeries series begin stop >>= recommend tuning := by
  have hw := window?_eq_filled? (start_eq_ok_iff.mpr hb) (reachesBack_of_not_lacks h)
  rw [evaluate, hw]
  cases ho : Window.ofSeries series begin stop
  case ok w => rfl
  case error error =>
    rcases Window.ofSeries_error_cases ho with ⟨hr, -⟩ | ⟨d, _, hf⟩
    case inl =>
      refine absurd (.intervals fun t i hm hs ht => ?_) h
      have := (Series.mem_range_iff (start_le (start_eq_ok_iff.mpr hb))).mpr ⟨hm, hs, ht⟩
      rw [hr] at this
      cases this
    case inr => rcases Interval.fault?_cases hf with rfl | ⟨_, _, _, rfl⟩ <;> rfl

theorem evaluate_of_lacks (h : Lacks series term stop begin) :
    evaluate tuning series term stop = .ok .notEnoughData := by
  have hs := start_eq_ok_iff.mpr hb
  have hw : window? series term stop = .ok none := by
    by_cases hr : term.days = 1 ∨ series.ReachesBack begin
    case neg => exact window?_eq_none hs hr
    case pos =>
      rw [window?_eq_filled? hs hr]
      cases h
      case age he hlt hd => exact absurd hlt ((reachesBack_iff he).mp (hr.resolve_left hd))
      case intervals h =>
        have : series.range begin stop = [] := by
          refine List.eq_nil_iff_forall_not_mem.mpr ?_
          rintro ⟨t, i⟩ hm
          have ⟨hm, hst, ht⟩ := (Series.mem_range_iff (start_le hs)).mp hm
          exact h t i hm hst ht
        simp [Window.ofSeries, this, filled?]
  rw [evaluate, hw]
  rfl

theorem evaluate_of_spoiled (h : ¬Lacks series term stop begin) (hf : IsSpoiled series stop begin) :
    ∃ error, evaluate tuning series term stop = .error error ∧
      ∃ d ∈ series.range begin stop, d.2.fault? d.1 = some error := by
  have ⟨t, i, hm, hs, ht, hf⟩ := hf
  have hle := start_le (start_eq_ok_iff.mpr hb)
  have ⟨error, ho⟩ := Window.ofSeries_of_fault? hle hm hs ht hf
  rw [evaluate_eq_of_not_lacks tuning hb h, ho]
  refine ⟨error, rfl, (Window.ofSeries_error_cases ho).resolve_left ?_⟩
  intro ⟨hr, _⟩
  have := (Series.mem_range_iff hle).mpr ⟨hm, hs, ht⟩
  rw [hr] at this
  cases this

theorem evaluate_of_not_spoiled (h : ¬Lacks series term stop begin)
    (hf : ¬IsSpoiled series stop begin) :
    ∃ r, evaluate tuning series term stop = .ok r ∧
      recommend tuning ⟨begin, stop, series.range begin stop⟩ = .ok r := by
  have hle := start_le (start_eq_ok_iff.mpr hb)
  obtain ⟨t, i, hm, hs, ht⟩ : ∃ t i, (t, i) ∈ series.entries ∧ begin ≤ t ∧ t ≤ stop := by
    by_contra hn
    exact h (.intervals fun t i hm hs ht => hn ⟨t, i, hm, hs, ht⟩)
  have ho := Window.ofSeries_eq_ok hle hm hs ht fun t i hm hs ht => by
    by_contra hne
    exact hf ⟨t, i, hm, hs, ht, Option.isSome_iff_ne_none.mpr hne⟩
  have ⟨r, hr⟩ := exists_recommend tuning (Window.intervals_ne_nil ho)
  rw [evaluate_eq_of_not_lacks tuning hb h, ho]
  exact ⟨r, hr, hr⟩

end Evaluate

-- The pods behind one interval: how often the average of its CPU usage goes into the sum, rounded up and
-- held to 32 bits.
def podsBehind (i : Interval) : UInt32 :=
  if i.value .cpuUsage .average == 0.0 then 0
  else (ceil (i.value .cpuUsage .total / i.value .cpuUsage .average)).toUInt32

-- What a recommendation says of the intervals `es` that it was made from. Their minutes are added in
-- chronological order.
structure IsSized (tuning : Tuning) (begin stop : Timestamp) (es : List (Timestamp × Interval))
    (r : Recommendation) : Prop where
  recommended   : recommend tuning ⟨begin, stop, es⟩ = .ok r
  start         : r.start = some begin
  stop          : r.stop = some stop
  hours         : r.hours = sum (es.map fun e => e.2.minutes) / 60.0
  pods          : IsGreatest {n | ∃ e ∈ es, podsBehind e.2 = n} r.pods
  variation     : r.variation = ∅
  notifications : r.notifications.Sublist [.ofKind .cpuRecordsAreZero, .ofKind .memoryRecordsAreZero]

-- Nothing can be recommended for a window without intervals, as they have no percentiles.
theorem intervals_ne_nil (h : recommend tuning w = .ok r) : w.intervals ≠ [] := by
  intro he
  have ⟨_, hd⟩ := exists_ofResource h .cpu
  have ⟨_, hc, _⟩ := Demand.ofResource_eq_ok_iff.mp hd
  simp [Window.values, he, percentile, sort] at hc

theorem isSized_of_recommend (h : recommend tuning w = .ok r) :
    IsSized tuning w.start w.stop w.intervals r := by
  have ⟨hstart, hstop, hhours, hpods, hvariation⟩ := recommend_bounds h
  have ⟨cpu, memory, _, _, _, _, _, hn⟩ := recommend_eq_ok h
  refine ⟨h, hstart, hstop, hhours, hpods ▸ Window.isGreatest_pods (intervals_ne_nil h), hvariation, ?_⟩
  rw [hn]
  cases cpu.isNone tuning.zeroCpu <;> cases memory.isNone 0.0 <;> simp

theorem evaluate_error_cases (h : evaluate tuning series term stop = .error error) :
    error = .windowOutOfRange stop term.minutes ∨
      ∃ t i, (t, i) ∈ series.entries ∧ i.fault? t = some error := by
  by_cases he : series.entries = []
  case pos =>
    rw [evaluate_of_empty tuning he] at h
    cases h
  case neg =>
    cases hb : stop.daysBefore? term.days.toNat
    case none =>
      rw [evaluate_of_outOfRange tuning he hb] at h
      injection h with h
      exact .inl h.symm
    case some begin =>
      by_cases hl : Lacks series term stop begin
      case pos =>
        rw [evaluate_of_lacks tuning hb hl] at h
        cases h
      case neg =>
        by_cases hf : IsSpoiled series stop begin
        case pos =>
          have ⟨error', he, ⟨t, i⟩, hm, hi⟩ := evaluate_of_spoiled tuning hb hl hf
          obtain rfl := Except.error.inj (h.symm.trans he)
          exact .inr ⟨t, i, (Series.mem_range hm).left, hi⟩
        case neg =>
          have ⟨_, hr, _⟩ := evaluate_of_not_spoiled tuning hb hl hf
          rw [hr] at h
          cases h

-- The window of a recommendation reaches back by the days of its term.
theorem exists_days_of_evaluate (h : evaluate tuning series term stop = .ok r) (hr : r.start.isSome) :
    ∃ w, stop.daysBefore? term.days.toNat = some w.start ∧
      Window.ofSeries series w.start stop = .ok w ∧ recommend tuning w = .ok r := by
  have not_empty (hn : evaluate tuning series term stop = .ok .notEnoughData) : False := by
    obtain rfl := Except.ok.inj (h.symm.trans hn)
    cases hr
  by_cases he : series.entries = []
  case pos => exact (not_empty (evaluate_of_empty tuning he)).elim
  case neg =>
    cases hb : stop.daysBefore? term.days.toNat
    case none =>
      rw [evaluate_of_outOfRange tuning he hb] at h
      cases h
    case some begin =>
      by_cases hl : Lacks series term stop begin
      case pos => exact (not_empty (evaluate_of_lacks tuning hb hl)).elim
      case neg =>
        rw [evaluate_eq_of_not_lacks tuning hb hl] at h
        have ⟨w, hw, hrec⟩ := bind_eq_ok_iff.mp h
        obtain ⟨rfl, _⟩ := Window.bounds_of_ofSeries hw
        exact ⟨w, rfl, hw, hrec⟩

end CapacityBased

namespace Engine

open CapacityBased

theorem recommend_days_outcome (engine : Engine) (series : Series) (stop : Timestamp) (term : Term)
    (hk : engine.kind = .capacityBased) (hd : engine.policy.HasDistinctLabels)
    (ht : term ∈ engine.policy.terms) :
    ∃ r, (engine.recommend series stop).get? term.label = some r ∧
      (series.entries = [] → r = .notEnoughData) ∧
      (series.entries ≠ [] → stop.daysBefore? term.days.toNat = none →
        r = .calculationFailed (.windowOutOfRange stop term.minutes)) ∧
      (∀ begin, series.entries ≠ [] → stop.daysBefore? term.days.toNat = some begin →
        (r = .notEnoughData ↔ Lacks series term stop begin) ∧
        ((∃ error, r = .calculationFailed error) ↔
          ¬Lacks series term stop begin ∧ IsSpoiled series stop begin) ∧
        (¬Lacks series term stop begin → ¬IsSpoiled series stop begin →
          IsSized engine.tuning begin stop
            (series.entries.filter fun e => begin ≤ e.1 ∧ e.1 ≤ stop) r)) ∧
      ∀ error, engine.evaluate series term stop = .error error →
        error ≠ .noValues ∧ ∀ start stop, error ≠ .emptyWindow start stop := by
  have hev : engine.evaluate series term stop = CapacityBased.evaluate engine.tuning series term stop :=
    evaluate_capacityBased hk
  refine ⟨_, get?_recommend hd ht, ?empty, ?outOfRange, ?inRange, ?errors⟩
  case empty => exact fun he => outcome_of_ok (hev.trans (evaluate_of_empty _ he))
  case outOfRange => exact fun he hb => outcome_of_error (hev.trans (evaluate_of_outOfRange _ he hb))
  case inRange =>
    intro begin _ hb
    -- one case for each outcome, and in each of them the other two are excluded
    by_cases hl : Lacks series term stop begin
    case pos =>
      rw [outcome_of_ok (hev.trans (evaluate_of_lacks _ hb hl))]
      refine ⟨iff_of_true rfl hl, iff_of_false ?_ fun h => h.left hl, fun h => absurd hl h⟩
      exact fun ⟨_, h⟩ => Recommendation.calculationFailed_ne_notEnoughData h.symm
    case neg =>
      by_cases hf : IsSpoiled series stop begin
      case pos =>
        have ⟨error, he, _⟩ := evaluate_of_spoiled engine.tuning hb hl hf
        rw [outcome_of_error (hev.trans he)]
        exact ⟨iff_of_false Recommendation.calculationFailed_ne_notEnoughData hl,
          iff_of_true ⟨error, rfl⟩ ⟨hl, hf⟩, fun _ h => absurd hf h⟩
      case neg =>
        have ⟨r, he, hr⟩ := evaluate_of_not_spoiled engine.tuning hb hl hf
        have hs := isSized_of_recommend hr
        simp only [series.range_eq_filter (start_le (start_eq_ok_iff.mpr hb))] at hs
        rw [outcome_of_ok (hev.trans he)]
        -- only this recommendation has a start
        refine ⟨iff_of_false ?_ hl, iff_of_false ?_ fun h => hf h.right, fun _ _ => hs⟩
        · rintro rfl
          cases hs.start
        · rintro ⟨error, rfl⟩
          cases hs.start
  case errors =>
    intro error he
    rcases evaluate_error_cases (hev.symm.trans he) with rfl | ⟨t, i, _, hf⟩
    · simp
    · rcases Interval.fault?_cases hf with rfl | ⟨_, _, _, rfl⟩ <;> simp

theorem recommend_days_outcome_measuredSeries :
    (standard .capacityBased).kind = .capacityBased ∧
    (standard .capacityBased).policy.HasDistinctLabels ∧
    ⟨"short_term", 1, 30.0⟩ ∈ (standard .capacityBased).policy.terms ∧
    ∃ r, ((standard .capacityBased).recommend measuredSeries default).get? "short_term" = some r ∧
      IsSized default dayBefore default measuredSeries.entries r := by
  have hd := hasDistinctLabels_standard .capacityBased
  have ht := shortTerm_mem_standard .capacityBased
  refine ⟨rfl, hd, ht, ?_⟩
  obtain ⟨r, hr, _, _, h, _⟩ := recommend_days_outcome (standard .capacityBased) measuredSeries default
    ⟨"short_term", 1, 30.0⟩ rfl hd ht
  have hb := start_eq_ok_iff.mp start_shortTerm
  have hm : ((default : Timestamp), measuredHour) ∈ measuredSeries.entries := List.mem_singleton_self _
  have hl : ¬Lacks measuredSeries ⟨"short_term", 1, 30.0⟩ default dayBefore := by
    intro hl
    cases hl
    case age hd => exact hd rfl
    case intervals h => exact h _ _ hm (by decide +kernel) (by decide +kernel)
  have hf : ¬IsSpoiled measuredSeries default dayBefore := by
    rintro ⟨t, i, hi, _, _, hf⟩
    obtain ⟨rfl, rfl⟩ := Prod.mk.inj (List.mem_singleton.mp hi)
    exact absurd hf (by decide +kernel)
  exact ⟨r, hr, (h dayBefore (List.ne_nil_of_mem hm) hb).right.right hl hf⟩

end Engine

end ContainerSizing
