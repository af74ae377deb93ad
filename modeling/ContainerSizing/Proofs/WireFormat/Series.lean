import ContainerSizing.Proofs.Json.Lossless
import ContainerSizing.Proofs.SortedMap
import ContainerSizing.Proofs.Timestamp.Text
import ContainerSizing.Series.Basic

namespace ContainerSizing

open Reader

variable {P : Float → Prop}

namespace Aggregate

def Each (P : Float → Prop) (a : Aggregate) : Prop :=
  ∀ s, P (a.value s)

theorem each_iff {a : Aggregate} :
    a.Each P ↔ ((P a.average ∧ P a.maximum) ∧ P a.minimum) ∧ P a.total := by
  constructor
  · intro h
    exact ⟨⟨⟨h .average, h .maximum⟩, h .minimum⟩, h .total⟩
  · rintro ⟨⟨⟨ha, hx⟩, hn⟩, ht⟩ (_ | _ | _ | _)
    exacts [ha, hx, hn, ht]

instance [DecidablePred P] (a : Aggregate) : Decidable (a.Each P) :=
  decidable_of_iff _ each_iff.symm

variable [Json.Conversion]

theorem inverts_reader : Inverts reader toJson Each := by
  intro a
  let fields := [("avg", Json.float a.average), ("max", Json.float a.maximum),
    ("min", Json.float a.minimum), ("sum", Json.float a.total), ("format", Json.text a.unit)]
  let ms := Members.ofFields fields
  have haverage : Yields (ms.optional "avg" number 0.0) _ _ a.average :=
    Members.yields_optional inverts_number rfl
  have hmaximum : Yields (ms.optional "max" number 0.0) _ _ a.maximum :=
    Members.yields_optional inverts_number rfl
  have hminimum : Yields (ms.optional "min" number 0.0) _ _ a.minimum :=
    Members.yields_optional inverts_number rfl
  have htotal : Yields (ms.optional "sum" number 0.0) _ _ a.total :=
    Members.yields_optional inverts_number rfl
  have hunit : Yields (ms.optional "format" text "") _ _ a.unit :=
    Members.yields_optional inverts_text rfl
  have hnames : ∀ f ∈ fields, f.1 ∈ ["avg", "max", "min", "sum", "format"] := by simp [fields]
  rw [reader, toJson]
  refine (Members.yields_record hnames ((((haverage.map.seq hmaximum).seq hminimum).seq
    htotal).seq hunit)).congr ?_ ?_
  all_goals simp only [each_iff, and_true]

theorem lossless_reader : Lossless reader toJson Each := by
  refine lossless_record inverts_reader ?written ?sound
  case written => simp [Json.isWritten_float, Json.isWritten_text]
  case sound =>
    intro ms a ha
    simp only [Scan.seq_eq_ok_iff, Scan.map_eq_ok_iff] at ha
    obtain ⟨_, _, ⟨_, _, ⟨_, _, ⟨_, _, ⟨_, ha, rfl⟩, hx, rfl⟩, hn, rfl⟩, ht, rfl⟩, _, rfl⟩ := ha
    have haverage := Members.isFinite_of_optional rfl ha
    have hmaximum := Members.isFinite_of_optional rfl hx
    have hminimum := Members.isFinite_of_optional rfl hn
    have htotal := Members.isFinite_of_optional rfl ht
    exact each_iff.mpr ⟨⟨⟨haverage, hmaximum⟩, hminimum⟩, htotal⟩

end Aggregate

namespace Interval

section Metrics

variable {metrics : Metric → Option Aggregate} {m : Metric}

def EachMetric (P : Float → Prop) (metrics : Metric → Option Aggregate) : Prop :=
  ∀ m a, metrics m = some a → a.Each P

-- The members of the object.
def entries (metrics : Metric → Option Aggregate) : List (Metric × Aggregate) :=
  Metric.all.filterMap fun m => (metrics m).map (m, ·)

def withMetrics (i : Interval) (es : List (Metric × Aggregate)) : Interval :=
  es.foldl (fun i (m, a) => i.withMetric m a) i

theorem metrics_withMetric (i : Interval) (k : Metric) (a : Aggregate) :
    (i.withMetric k a).metrics m = if m = k then some a else i.metrics m :=
  rfl

-- Metrics that are missing stay as they were.
theorem metrics_withMetrics (i : Interval) (ks : List Metric) :
    (i.withMetrics (ks.filterMap fun m => (metrics m).map (m, ·))).metrics m =
      if m ∈ ks then (metrics m).or (i.metrics m) else i.metrics m := by
  induction ks generalizing i
  case nil => rfl
  case cons k ks hi =>
    cases hk : metrics k
    case none =>
      rw [List.filterMap_cons_none (by rw [hk]; rfl), hi]
      by_cases hm : m = k <;> simp [hm, hk]
    case some a =>
      rw [List.filterMap_cons_some (by rw [hk]; rfl), withMetrics, List.foldl_cons, ← withMetrics,
        hi, metrics_withMetric]
      by_cases hm : m = k <;> simp [hm, hk]

theorem metrics_entries (metrics : Metric → Option Aggregate) :
    ((bare 0.0).withMetrics (entries metrics)).metrics = metrics := by
  funext m
  rw [entries, metrics_withMetrics, if_pos m.mem_all]
  exact Option.or_none

theorem forall_mem_entries (metrics : Metric → Option Aggregate) :
    (∀ e ∈ entries metrics, e.2.Each P) ↔ EachMetric P metrics := by
  simp only [entries, List.mem_filterMap, Option.map_eq_some_iff]
  constructor
  · intro h m a ha
    exact h (m, a) ⟨m, m.mem_all, a, ha, rfl⟩
  · rintro h _ ⟨m, -, a, ha, rfl⟩
    exact h m a ha

instance [DecidablePred P] (metrics : Metric → Option Aggregate) :
    Decidable (EachMetric P metrics) :=
  decidable_of_iff _ (forall_mem_entries metrics)

theorem EachMetric.withMetric {i : Interval} {a : Aggregate} (h : EachMetric P i.metrics)
    (ha : a.Each P) : EachMetric P (i.withMetric m a).metrics := by
  intro m' a' h'
  rw [metrics_withMetric] at h'
  split at h'
  case isTrue =>
    cases h'
    exact ha
  case isFalse => exact h m' a' h'

theorem eachMetric_none : EachMetric P fun _ => none := by
  intro m a h
  cases h

variable [Json.Conversion]

theorem metricsReader_eq (v : Json) : metricsReader v =
    (fun es => ((bare 0.0).withMetrics es).metrics) <$>
      mapping Metric.ofName? Aggregate.reader v := by
  rw [metricsReader]
  cases mapping Metric.ofName? Aggregate.reader v <;> rfl

theorem lossless_metricsReader : Lossless metricsReader
    (fun metrics => .record ((entries metrics).map fun (m, a) => (m.name, a.toJson))) EachMetric := by
  rw [funext metricsReader_eq]
  refine (lossless_mapping Metric.ofName?_name Aggregate.lossless_reader).map metrics_entries
    (fun _ => forall_mem_entries) fun es he => ?_
  exact List.foldlRecOn es _ (motive := fun i : Interval => EachMetric _ i.metrics) eachMetric_none
    fun i hi e hm => hi.withMetric (he e hm)

end Metrics

structure Each (P : Float → Prop) (i : Interval) : Prop where
  minutes : P i.minutes
  metrics : EachMetric P i.metrics

theorem each_iff {i : Interval} : i.Each P ↔ P i.minutes ∧ EachMetric P i.metrics :=
  ⟨fun h => ⟨h.minutes, h.metrics⟩, fun h => ⟨h.left, h.right⟩⟩

instance [DecidablePred P] (i : Interval) : Decidable (i.Each P) :=
  decidable_of_iff _ each_iff.symm

variable [Json.Conversion]

theorem inverts_reader : Inverts reader toJson Each := by
  intro i
  let fields := [("duration_in_minutes", Json.float i.minutes),
    ("metrics", Json.record (i.measured.map fun (m, a) => (m.name, a.toJson)))]
  let ms := Members.ofFields fields
  have hminutes : Yields (ms.required "duration_in_minutes" number) _ _ i.minutes :=
    Members.yields_required inverts_number rfl
  have hmetrics : Yields (ms.optional "metrics" metricsReader fun _ => none) _ _ i.metrics :=
    Members.yields_optional lossless_metricsReader.inverts rfl
  have hnames : ∀ f ∈ fields, f.1 ∈ ["duration_in_minutes", "metrics"] := by simp [fields]
  rw [reader, toJson]
  exact (Members.yields_record hnames (hminutes.map.seq hmetrics)).congr each_iff.symm each_iff.symm

theorem lossless_reader : Lossless reader toJson Each := by
  refine lossless_record inverts_reader ?written ?sound
  case written =>
    intro i
    have hmetrics := lossless_metricsReader.written i.metrics
    simp only [List.forall_mem_cons, Json.isWritten_float, true_and]
    exact ⟨hmetrics, by simp⟩
  case sound =>
    intro ms i hi
    simp only [Scan.seq_eq_ok_iff, Scan.map_eq_ok_iff] at hi
    obtain ⟨_, _, ⟨_, hm, rfl⟩, ha, rfl⟩ := hi
    have hminutes := Members.isFinite_of_required hm
    have hmetrics := Members.sound_optional lossless_metricsReader eachMetric_none ha
    exact ⟨hminutes, hmetrics⟩

end Interval

namespace Series

def Each (P : Float → Prop) (s : Series) : Prop :=
  ∀ t i, s.get? t = some i → i.Each P

theorem forall_mem_entries (s : Series) : (∀ e ∈ s.entries, e.2.Each P) ↔ s.Each P := by
  simp only [Each, Prod.forall, SortedMap.mem_entries_iff]

instance [DecidablePred P] (s : Series) : Decidable (s.Each P) :=
  decidable_of_iff _ s.forall_mem_entries

theorem lossless_reader [Json.Conversion] : Lossless reader toJson Each :=
  (lossless_mapping Timestamp.ofText?_isoText Interval.lossless_reader).map SortedMap.ofList_entries
    (fun _ => forall_mem_entries) fun _ he _ _ h => he _ (SortedMap.mem_of_get?_ofList h)

end Series

end ContainerSizing
