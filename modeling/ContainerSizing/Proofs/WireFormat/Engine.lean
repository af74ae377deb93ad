import ContainerSizing.Policy
import ContainerSizing.Proofs.Json.Lossless
import ContainerSizing.Tuning

namespace ContainerSizing

open Reader

variable {P : Float → Prop}

namespace Tuning

def Each (P : Float → Prop) (t : Tuning) : Prop :=
  ∀ f ∈ t.percentiles ++ t.thresholds, P f.2

instance [DecidablePred P] (t : Tuning) : Decidable (t.Each P) :=
  inferInstanceAs (Decidable (∀ f ∈ t.percentiles ++ t.thresholds, P f.2))

-- In the order of the members.
theorem each_iff {t : Tuning} : t.Each P ↔
    ((((((P t.oneCore ∧ P t.oneMillicore) ∧ P t.zeroCpu) ∧ P t.cpuPercentile) ∧
      P t.memoryPercentile) ∧ P t.usageBuffer) ∧ P t.spikeBuffer) ∧ P t.capacityPercentile := by
  simp only [Each, percentiles, thresholds, List.cons_append, List.nil_append,
    List.forall_mem_cons, List.not_mem_nil]
  tauto

variable [Json.Conversion]

theorem inverts_reader : Inverts reader toJson Each := by
  intro t
  let fields := [("cpu_one_core", Json.float t.oneCore),
    ("cpu_one_millicore", Json.float t.oneMillicore), ("cpu_zero", Json.float t.zeroCpu),
    ("cpu_request_percentile", Json.float t.cpuPercentile),
    ("memory_percentile", Json.float t.memoryPercentile),
    ("memory_usage_buffer", Json.float t.usageBuffer),
    ("memory_spike_buffer", Json.float t.spikeBuffer),
    ("capacity_percentile", Json.float t.capacityPercentile)]
  let ms := Members.ofFields fields
  have hfield (name : String) (x standard : Float)
      (h : (fields.filter fun f => f.1 = name) = [(name, .float x)]) :
      Yields (ms.optional name number standard) (ReadsBack x) x.isFinite x :=
    Members.yields_optional inverts_number h
  have hone := hfield "cpu_one_core" t.oneCore 1.0 rfl
  have hmilli := hfield "cpu_one_millicore" t.oneMillicore 0.001 rfl
  have hzero := hfield "cpu_zero" t.zeroCpu 0.0 rfl
  have hcpu := hfield "cpu_request_percentile" t.cpuPercentile 98.0 rfl
  have hmemory := hfield "memory_percentile" t.memoryPercentile 100.0 rfl
  have husage := hfield "memory_usage_buffer" t.usageBuffer 0.2 rfl
  have hspike := hfield "memory_spike_buffer" t.spikeBuffer 0.05 rfl
  have hcapacity := hfield "capacity_percentile" t.capacityPercentile 90.0 rfl
  have hnames : ∀ f ∈ fields, f.1 ∈ names := by simp [fields, names]
  rw [reader, toJson]
  exact (Members.yields_record hnames (((((((hone.map.seq hmilli).seq hzero).seq hcpu).seq
    hmemory).seq husage).seq hspike).seq hcapacity)).congr each_iff.symm each_iff.symm

theorem lossless_reader : Lossless reader toJson Each := by
  refine lossless_record inverts_reader ?written ?sound
  case written => simp [Json.isWritten_float]
  case sound =>
    intro ms t ht
    simp only [Scan.seq_eq_ok_iff, Scan.map_eq_ok_iff] at ht
    obtain ⟨_, _, ⟨_, _, ⟨_, _, ⟨_, _, ⟨_, _, ⟨_, _, ⟨_, _, ⟨_, h₁, rfl⟩, h₂, rfl⟩, h₃, rfl⟩, h₄, rfl⟩,
      h₅, rfl⟩, h₆, rfl⟩, h₇, rfl⟩, h₈, rfl⟩ := ht
    have hone := Members.isFinite_of_optional rfl h₁
    have hmilli := Members.isFinite_of_optional (by decide) h₂
    have hzero := Members.isFinite_of_optional rfl h₃
    have hcpu := Members.isFinite_of_optional rfl h₄
    have hmemory := Members.isFinite_of_optional rfl h₅
    have husage := Members.isFinite_of_optional (by decide) h₆
    have hspike := Members.isFinite_of_optional (by decide) h₇
    have hcapacity := Members.isFinite_of_optional rfl h₈
    exact each_iff.mpr ⟨⟨⟨⟨⟨⟨⟨hone, hmilli⟩, hzero⟩, hcpu⟩, hmemory⟩, husage⟩, hspike⟩, hcapacity⟩

end Tuning

namespace Term

def Each (P : Float → Prop) (t : Term) : Prop :=
  P t.leastMinutes

instance [DecidablePred P] (t : Term) : Decidable (t.Each P) :=
  inferInstanceAs (Decidable (P t.leastMinutes))

variable [Json.Conversion]

theorem inverts_reader : Inverts reader toJson Each := by
  intro t
  let fields := [("label", Json.text t.label), ("duration_days", Json.natural t.days.toNat),
    ("lower_bound_minutes", Json.float t.leastMinutes)]
  let ms := Members.ofFields fields
  have hlabel : Yields (ms.required "label" text) _ _ t.label :=
    Members.yields_required inverts_text rfl
  have hdays : Yields (ms.required "duration_days" uint32) _ _ t.days :=
    Members.yields_required inverts_uint32 rfl
  have hleast : Yields (ms.required "lower_bound_minutes" number) _ _ t.leastMinutes :=
    Members.yields_required inverts_number rfl
  have hnames : ∀ f ∈ fields, f.1 ∈ ["label", "duration_days", "lower_bound_minutes"] := by
    simp [fields]
  rw [reader, toJson]
  refine (Members.yields_record hnames ((hlabel.map.seq hdays).seq hleast)).congr ?_ ?_
  all_goals simp only [Each, true_and]

theorem lossless_reader : Lossless reader toJson Each := by
  refine lossless_record inverts_reader ?written ?sound
  case written => simp [Json.isWritten_text, Json.isWritten_natural, Json.isWritten_float]
  case sound =>
    intro ms t ht
    simp only [Scan.seq_eq_ok_iff, Scan.map_eq_ok_iff] at ht
    obtain ⟨_, _, ⟨_, _, ⟨_, -, rfl⟩, -, rfl⟩, hleast, rfl⟩ := ht
    exact Members.isFinite_of_required hleast

end Term

namespace Policy

def Each (P : Float → Prop) (p : Policy) : Prop :=
  ∀ t ∈ p.terms, t.Each P

instance [DecidablePred P] (p : Policy) : Decidable (p.Each P) :=
  inferInstanceAs (Decidable (∀ t ∈ p.terms, t.Each P))

variable [Json.Conversion]

theorem inverts_reader : Inverts reader toJson Each := by
  intro p
  let fields := [("sub_categories", Json.array (p.terms.map Term.toJson))]
  have hterms : Yields ((Members.ofFields fields).required "sub_categories" (list Term.reader)) _ _
      p.terms := Members.yields_required (inverts_list Term.inverts_reader) rfl
  have hnames : ∀ f ∈ fields, f.1 ∈ ["sub_categories"] := by simp [fields]
  rw [reader, toJson]
  exact Members.yields_record hnames hterms.map

theorem lossless_reader : Lossless reader toJson Each := by
  refine lossless_record inverts_reader ?written ?sound
  case written => simp [(lossless_list Term.lossless_reader).written]
  case sound =>
    intro ms p hp
    simp only [Scan.map_eq_ok_iff] at hp
    obtain ⟨_, ht, rfl⟩ := hp
    exact (Members.sound_required (lossless_list Term.lossless_reader) ht :)

end Policy

end ContainerSizing
