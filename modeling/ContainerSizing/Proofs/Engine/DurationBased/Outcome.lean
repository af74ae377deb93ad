import ContainerSizing.Proofs.Engine.Basic
import ContainerSizing.Proofs.Statistics
import ContainerSizing.Proofs.Window

namespace ContainerSizing

open Binary64 Statistics

theorem Recommendation.calculationFailed_ne_notEnoughData {error : EvaluationError} :
    calculationFailed error ≠ notEnoughData := by
  simp [calculationFailed, notEnoughData, Notification.ofKind, Notification.withMessage]

namespace DurationBased

variable {tuning : Tuning} {series : Series} {term : Term} {stop start : Timestamp} {w : Window}
variable {e : Timestamp × Interval} {r : Recommendation}

-- The recommendation for a window whose sizings are known.
def Sizings.recommendation (z : Sizings) (term : Term) (w : Window) : Recommendation where
  start         := some w.start
  stop          := some w.stop
  hours         := term.hours
  pods          := w.pods
  config        := z.config
  variation     := z.variation w w.stop
  notifications := (z.notifications w w.stop).map .ofKind

theorem recommend_eq_ok_iff :
    recommend tuning term w = .ok r ↔
      ∃ cpu, sizeCpu tuning w = .ok cpu ∧
        ∃ memory, sizeMemory tuning w = .ok memory ∧
          Sizings.recommendation ⟨cpu, memory⟩ term w = r := by
  simp only [recommend, bind_eq_ok_iff]
  simp [pure, Except.pure, Sizings.recommendation]

section Total

-- A window with intervals has percentiles and a maximum.

theorem exists_cpuUsage (tuning : Tuning) (h : w.intervals ≠ []) : ∃ x, cpuUsage tuning w = .ok x := by
  have hv := Window.values_ne_nil h (cpuCandidate tuning)
  have ⟨most, hm⟩ := exists_largest hv
  have ⟨x, _, hx⟩ := percentile_ne_error (p := tuning.cpuPercentile) hv
  by_cases hlt : most < tuning.oneCore
  · exact ⟨most, bind_eq_ok_iff.mpr ⟨most, hm, if_pos hlt⟩⟩
  · exact ⟨x, bind_eq_ok_iff.mpr ⟨most, hm, (if_neg hlt).trans hx⟩⟩

theorem exists_sizeCpu (tuning : Tuning) (h : w.intervals ≠ []) : ∃ z, sizeCpu tuning w = .ok z := by
  have ⟨usage, hu⟩ := exists_cpuUsage tuning h
  simp only [sizeCpu, bind_eq_ok_iff, hu, Except.ok.injEq, exists_eq_left']
  split_ifs <;> exact ⟨_, rfl⟩

theorem exists_signals (tuning : Tuning) (h : w.intervals ≠ []) :
    ∃ s, MemorySignals.ofWindow tuning w = .ok s := by
  have hu := Window.values_ne_nil h memoryUsageSignal
  have hs := Window.values_ne_nil h memorySpikeSignal
  have ⟨usage, _, hu⟩ := percentile_ne_error (p := tuning.memoryPercentile) hu
  have ⟨spike, _, hs⟩ := percentile_ne_error (p := tuning.memoryPercentile) hs
  exact ⟨_, bind_eq_ok_iff.mpr ⟨usage, hu, bind_eq_ok_iff.mpr ⟨spike, hs, rfl⟩⟩⟩

theorem exists_sizeMemory (tuning : Tuning) (h : w.intervals ≠ []) :
    ∃ z, sizeMemory tuning w = .ok z := by
  have ⟨s, hs⟩ := exists_signals tuning h
  simp only [sizeMemory, bind_eq_ok_iff, hs, Except.ok.injEq, exists_eq_left']
  split_ifs <;> exact ⟨_, rfl⟩

theorem exists_recommend (tuning : Tuning) (term : Term) (h : w.intervals ≠ []) :
    ∃ r, recommend tuning term w = .ok r := by
  have ⟨cpu, hc⟩ := exists_sizeCpu tuning h
  have ⟨memory, hm⟩ := exists_sizeMemory tuning h
  exact ⟨_, recommend_eq_ok_iff.mpr ⟨cpu, hc, memory, hm, rfl⟩⟩

end Total

-- The interval at which the walk of a term stops.
def StopsAt (series : Series) (term : Term) (stop : Timestamp) (e : Timestamp × Interval) : Prop :=
  ∃ n, Walk.Stops term.leastMinutes 0.0 (series.untilDesc stop) n e

theorem StopsAt.unique {d : Timestamp × Interval} (h : StopsAt series term stop e)
    (h' : StopsAt series term stop d) : e = d :=
  have ⟨_, h⟩ := h
  have ⟨_, h'⟩ := h'
  (h.unique h').right

theorem StopsAt.mem (h : StopsAt series term stop e) : e ∈ series.entries ∧ e.1 ≤ stop :=
  have ⟨_, h⟩ := h
  Series.mem_untilDesc.mp h.mem

-- Why a term fails whose walk stops at `e`.
inductive Fails (series : Series) (stop : Timestamp) (e : Timestamp × Interval) : Prop where
  | duration (h : ¬isMeasure e.2.minutes)
  | start (h : e.1.minutesBefore? e.2.minutes = none)
  | window {start t : Timestamp} {i : Interval} (h : e.1.minutesBefore? e.2.minutes = some start)
      (hm : (t, i) ∈ series.entries) (hs : start ≤ t) (ht : t ≤ stop) (hf : (i.fault? t).isSome)

-- How the walk of a term ends.
theorem ofTerm_spec (series : Series) (term : Term) (stop : Timestamp) :
    match Walk.ofTerm series term stop with
    | .exhausted _ => ∀ e, ¬StopsAt series term stop e
    | .invalid t i => StopsAt series term stop (t, i) ∧ ¬isMeasure i.minutes
    | .reached t i _ => StopsAt series term stop (t, i) ∧ isMeasure i.minutes := by
  have hr := Walk.run_spec term.leastMinutes 0.0 (series.untilDesc stop)
  have hw : Walk.ofTerm series term stop =
    Walk.run term.leastMinutes 0.0 (series.untilDesc stop) := rfl
  rw [← hw] at hr
  cases hw : Walk.ofTerm series term stop <;> rw [hw] at hr
  case exhausted => exact fun e ⟨n, h⟩ => hr n e h
  case invalid | reached => exact hr

theorem walk_of_stopsAt (h : StopsAt series term stop e) :
    Walk.ofTerm series term stop = .invalid e.1 e.2 ∧ ¬isMeasure e.2.minutes ∨
      ∃ m, Walk.ofTerm series term stop = .reached e.1 e.2 m ∧ isMeasure e.2.minutes := by
  have hr := ofTerm_spec series term stop
  cases hw : Walk.ofTerm series term stop <;> rw [hw] at hr
  case exhausted => exact absurd h (hr e)
  case invalid t i =>
    obtain rfl := h.unique hr.left
    exact .inl ⟨rfl, hr.right⟩
  case reached t i m =>
    obtain rfl := h.unique hr.left
    exact .inr ⟨m, rfl, hr.right⟩

section Start

variable {s : Timestamp}

theorem start?_eq_some_iff :
    (Walk.ofTerm series term stop).start? = .ok (some s) ↔
      ∃ e, StopsAt series term stop e ∧ isMeasure e.2.minutes ∧ e.2.start e.1 = .ok s := by
  have hr := ofTerm_spec series term stop
  cases hw : Walk.ofTerm series term stop <;> rw [hw] at hr
  case exhausted => simp [Walk.start?, hr]
  case invalid t i =>
    refine iff_of_false nofun ?_
    intro ⟨e, he, hm, _⟩
    obtain rfl := he.unique hr.left
    exact hr.right hm
  case reached t i m =>
    have hmap : (Walk.reached t i m).start? = .ok (some s) ↔ i.start t = .ok s := by
      rw [Walk.start?]
      cases i.start t <;> simp [Functor.map, Except.map]
    rw [hmap]
    constructor
    case mp => exact fun h => ⟨_, hr.left, hr.right, h⟩
    case mpr =>
      intro ⟨e, he, _, hs⟩
      obtain rfl := he.unique hr.left
      exact hs

theorem start?_eq_none_iff :
    (Walk.ofTerm series term stop).start? = .ok none ↔ ∀ e, ¬StopsAt series term stop e := by
  have hr := ofTerm_spec series term stop
  cases hw : Walk.ofTerm series term stop <;> rw [hw] at hr
  case exhausted => exact iff_of_true rfl hr
  case invalid t i => exact iff_of_false nofun fun h => h _ hr.left
  case reached t i m =>
    refine iff_of_false ?_ fun h => h _ hr.left
    rw [Walk.start?]
    cases i.start t <;> simp [Functor.map, Except.map]

end Start

theorem evaluate_of_not_stopsAt (h : ∀ e, ¬StopsAt series term stop e) :
    evaluate tuning series term stop = .ok .notEnoughData := by
  have hr := ofTerm_spec series term stop
  cases hw : Walk.ofTerm series term stop <;> rw [hw] at hr
  case exhausted => simp [evaluate, hw, Walk.start?, bind, Except.bind, pure, Except.pure]
  case invalid | reached => exact absurd hr.left (h _)

theorem evaluate_of_reached {m : Float} {t : Timestamp} {i : Interval}
    (hw : Walk.ofTerm series term stop = .reached t i m) :
    evaluate tuning series term stop =
      match t.minutesBefore? i.minutes with
      | some start => Window.ofSeries series start stop >>= recommend tuning term
      | none => .error (.windowOutOfRange t i.minutes) := by
  cases hs : t.minutesBefore? i.minutes <;>
    simp [evaluate, hw, Walk.start?, Interval.start, hs, bind, Except.bind, Functor.map, Except.map]

theorem evaluate_of_fails (tuning : Tuning) (h : StopsAt series term stop e)
    (hf : Fails series stop e) :
    ∃ error, evaluate tuning series term stop = .error error := by
  cases walk_of_stopsAt h
  case inl hw =>
    have ⟨hw, _⟩ := hw
    exact ⟨.invalidDuration e.1 e.2.minutes, by simp [evaluate, hw, Walk.start?, bind, Except.bind]⟩
  case inr hw =>
    have ⟨m, hw, hm⟩ := hw
    rw [evaluate_of_reached hw]
    cases hf
    case duration hn => exact absurd hm hn
    case start hn =>
      simp only [hn]
      exact ⟨_, rfl⟩
    case window start t i hs hi hst ht hf =>
      -- a valid duration leads back in time, so the window is not reversed
      have hle := Timestamp.le_trans (Timestamp.minutesBefore?_le hm hs) h.mem.right
      have ⟨error, he⟩ := Window.ofSeries_of_fault? hle hi hst ht hf
      simp only [hs, he]
      exact ⟨error, rfl⟩

-- The window holds the interval at which the walk stopped, so it is not empty.
theorem evaluate_of_not_fails (tuning : Tuning) (h : StopsAt series term stop e)
    (hf : ¬Fails series stop e) :
    ∃ w r, e.1.minutesBefore? e.2.minutes = some w.start ∧ w.start ≤ stop ∧
      Window.ofSeries series w.start stop = .ok w ∧ recommend tuning term w = .ok r ∧
      evaluate tuning series term stop = .ok r := by
  cases walk_of_stopsAt h
  case inl hw => exact absurd (.duration hw.right) hf
  case inr hw =>
    have ⟨m, hw, hm⟩ := hw
    cases hs : e.1.minutesBefore? e.2.minutes
    case none => exact absurd (.start hs) hf
    case some start =>
      have ⟨he, hstop⟩ := h.mem
      have hle := Timestamp.minutesBefore?_le hm hs
      have hle' := Timestamp.le_trans hle hstop
      have hwin : Window.ofSeries series start stop = .ok ⟨start, stop, series.range start stop⟩ := by
        apply Window.ofSeries_eq_ok hle' he hle hstop
        intro t i hi hst ht
        by_contra hne
        exact hf (.window hs hi hst ht (Option.isSome_iff_ne_none.mpr hne))
      have ⟨r, hr⟩ := exists_recommend tuning term (Window.intervals_ne_nil hwin)
      refine ⟨⟨start, stop, series.range start stop⟩, r, rfl, hle', hwin, hr, ?_⟩
      simp only [evaluate_of_reached hw, hs, hwin]
      exact hr

theorem evaluate_of_start? (h : (Walk.ofTerm series term stop).start? = .ok (some start)) :
    evaluate tuning series term stop =
      Window.ofSeries series start stop >>= recommend tuning term := by
  rw [evaluate, h]
  rfl

-- A walk that finds a start and sound intervals from there on are all that a recommendation takes.
theorem exists_evaluate_of_start? (tuning : Tuning)
    (h : (Walk.ofTerm series term stop).start? = .ok (some start))
    (hf : ∀ t i, (t, i) ∈ series.entries → start ≤ t → t ≤ stop → i.fault? t = none) :
    ∃ w r, Window.ofSeries series start stop = .ok w ∧ recommend tuning term w = .ok r ∧
      evaluate tuning series term stop = .ok r := by
  obtain ⟨e, he, hm, hs⟩ := start?_eq_some_iff.mp h
  have hs := Interval.start_eq_ok_iff.mp hs
  have hn : ¬Fails series stop e := by
    intro hn
    cases hn
    case duration hn => exact hn hm
    case start hn =>
      rw [hs] at hn
      cases hn
    case window start' t i hs' hi hst ht hi' =>
      obtain rfl := Option.some.inj (hs.symm.trans hs')
      rw [hf t i hi hst ht] at hi'
      cases hi'
  have ⟨w, r, hw, _, hwin, hr, hev⟩ := evaluate_of_not_fails tuning he hn
  obtain rfl := Option.some.inj (hs.symm.trans hw)
  exact ⟨w, r, hwin, hr, hev⟩

-- A recommendation that is not empty is that of a window which ends at `stop`.
theorem evaluate_cases (h : evaluate tuning series term stop = .ok r) :
    r = .notEnoughData ∨
      ∃ w, w.start ≤ stop ∧ Window.ofSeries series w.start stop = .ok w ∧
        recommend tuning term w = .ok r := by
  by_cases hs : ∃ e, StopsAt series term stop e
  case neg =>
    rw [evaluate_of_not_stopsAt (not_exists.mp hs)] at h
    injection h with h
    exact .inl h.symm
  case pos =>
    have ⟨e, hs⟩ := hs
    by_cases hf : Fails series stop e
    case pos =>
      have ⟨error, he⟩ := evaluate_of_fails tuning hs hf
      rw [he] at h
      cases h
    case neg =>
      have ⟨w, r', _, hle, hw, hr, he⟩ := evaluate_of_not_fails tuning hs hf
      rw [he] at h
      injection h with h
      exact .inr ⟨w, hle, hw, h ▸ hr⟩

theorem exists_window_of_evaluate (h : evaluate tuning series term stop = .ok r)
    (hr : r.start.isSome) :
    ∃ w, w.start ≤ stop ∧ Window.ofSeries series w.start stop = .ok w ∧
      recommend tuning term w = .ok r := by
  refine (evaluate_cases h).resolve_left ?_
  rintro rfl
  cases hr

theorem recommend_bounds (h : recommend tuning term w = .ok r) :
    r.start = some w.start ∧ r.stop = some w.stop ∧ r.hours = term.hours ∧ r.pods = w.pods := by
  have ⟨_, _, _, _, h⟩ := recommend_eq_ok_iff.mp h
  subst h
  exact ⟨rfl, rfl, rfl, rfl⟩

end DurationBased

namespace Engine

open DurationBased

theorem recommend_outcome (engine : Engine) (series : Series) (stop : Timestamp) (term : Term)
    (hk : engine.kind = .durationBased) (hd : engine.policy.HasDistinctLabels)
    (ht : term ∈ engine.policy.terms) :
    ∃ r, (engine.recommend series stop).get? term.label = some r ∧
      (r = .notEnoughData ↔ ∀ e, ¬StopsAt series term stop e) ∧
      ((∃ error, r = .calculationFailed error) ↔
        ∃ e, StopsAt series term stop e ∧ Fails series stop e) ∧
      ∀ e, StopsAt series term stop e → ¬Fails series stop e →
        ∃ w : Window, e.1.minutesBefore? e.2.minutes = some w.start ∧ w.stop = stop ∧
          (∀ t i, (t, i) ∈ w.intervals ↔ (t, i) ∈ series.entries ∧ w.start ≤ t ∧ t ≤ stop) ∧
          r.start = some w.start ∧ r.stop = some stop ∧ r.hours = term.hours ∧ r.pods = w.pods ∧
          DurationBased.recommend engine.tuning term w = .ok r := by
  refine ⟨_, get?_recommend hd ht, ?_⟩
  -- one case for each outcome, and in each of them the other two are excluded
  by_cases hs : ∃ e, StopsAt series term stop e
  case neg =>
    have hs := not_exists.mp hs
    rw [outcome_of_ok ((evaluate_durationBased hk).trans (evaluate_of_not_stopsAt hs))]
    refine ⟨iff_of_true rfl hs, iff_of_false ?_ fun ⟨e, h, _⟩ => hs e h, fun e h => absurd h (hs e)⟩
    exact fun ⟨_, h⟩ => Recommendation.calculationFailed_ne_notEnoughData h.symm
  case pos =>
    have ⟨e, hs⟩ := hs
    by_cases hf : Fails series stop e
    case pos =>
      have ⟨error, he⟩ := evaluate_of_fails engine.tuning hs hf
      rw [outcome_of_error ((evaluate_durationBased hk).trans he)]
      refine ⟨iff_of_false Recommendation.calculationFailed_ne_notEnoughData (· e hs), ?_, ?_⟩
      · exact iff_of_true ⟨error, rfl⟩ ⟨e, hs, hf⟩
      · exact fun d hd hn => absurd (hs.unique hd ▸ hf) hn
    case neg =>
      have ⟨w, r, hstart, hle, hw, hr, he⟩ := evaluate_of_not_fails engine.tuning hs hf
      have ⟨h₁, h₂, h₃, h₄⟩ := recommend_bounds hr
      have ⟨_, hstop⟩ := Window.bounds_of_ofSeries hw
      have hmem (t : Timestamp) (i : Interval) :
          (t, i) ∈ w.intervals ↔ (t, i) ∈ series.entries ∧ w.start ≤ t ∧ t ≤ stop := by
        rw [Window.intervals_of_ofSeries hw, Series.mem_range_iff hle]
      rw [outcome_of_ok ((evaluate_durationBased hk).trans he)]
      -- only this recommendation has a start
      refine ⟨iff_of_false ?_ (· e hs), iff_of_false ?_ ?_, ?_⟩
      · intro h
        rw [h] at h₁
        cases h₁
      · intro ⟨error, h⟩
        rw [h] at h₁
        cases h₁
      · exact fun ⟨d, hd, hf'⟩ => hf (hs.unique hd ▸ hf')
      · intro d hd _
        obtain rfl := hs.unique hd
        exact ⟨w, hstart, hstop, hmem, h₁, hstop ▸ h₂, h₃, h₄, hr⟩

-- One hour of data is enough for the shortest term.
def measuredHour : Interval :=
  ((Interval.bare 60.0).withMetric .cpuUsage ⟨0.5, 0.75, 0.25, 1.0, "cores"⟩).withMetric .cpuRequest
    ⟨1.0, 1.0, 1.0, 1.0, "cores"⟩

def measuredSeries : Series :=
  SortedMap.ofList [(default, measuredHour)]

-- The start of that hour, and the end of the next one.

def hourBefore : Timestamp :=
  ⟨-3600, 0, by decide +kernel⟩

def nextHour : Timestamp :=
  ⟨3600, 0, by decide +kernel⟩

theorem stopsAt_measuredHour :
    StopsAt measuredSeries ⟨"short_term", 1, 30.0⟩ default (default, measuredHour) :=
  ⟨0, .zero (.inr (by decide +kernel))⟩

theorem not_fails_measuredHour : ¬Fails measuredSeries default (default, measuredHour) := by
  intro hf
  cases hf
  case duration h => exact h rfl
  case start h => exact absurd h (by decide +kernel)
  case window _ _ _ _ hm _ _ hf =>
    obtain ⟨rfl, rfl⟩ := Prod.mk.inj (List.mem_singleton.mp hm)
    exact absurd hf (by decide +kernel)

theorem recommend_outcome_measuredSeries :
    (standard .durationBased).kind = .durationBased ∧
    (standard .durationBased).policy.HasDistinctLabels ∧
    ⟨"short_term", 1, 30.0⟩ ∈ (standard .durationBased).policy.terms ∧
    ∃ r, ((standard .durationBased).recommend measuredSeries default).get? "short_term" = some r ∧
      r.start = (default : Timestamp).minutesBefore? 60.0 ∧ r.stop = some default := by
  have hd := hasDistinctLabels_standard .durationBased
  have ht := shortTerm_mem_standard .durationBased
  refine ⟨rfl, hd, ht, ?_⟩
  obtain ⟨r, hr, _, _, he⟩ := recommend_outcome (standard .durationBased) measuredSeries default
    ⟨"short_term", 1, 30.0⟩ rfl hd ht
  obtain ⟨w, hw, _, _, h₁, h₂, _⟩ := he _ stopsAt_measuredHour not_fails_measuredHour
  exact ⟨r, hr, h₁.trans hw.symm, h₂⟩

end Engine

end ContainerSizing
