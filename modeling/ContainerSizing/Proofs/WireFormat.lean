import ContainerSizing.Proofs.WireFormat.Engine
import ContainerSizing.Proofs.WireFormat.Recommendation
import ContainerSizing.Proofs.WireFormat.Series

namespace ContainerSizing

namespace Reader

variable [Json.Conversion] {α : Type} {read : Reader α} {write : α → Json}
variable {each : (Float → Prop) → α → Prop}

-- Values with finite numbers come back, and so does whatever was read from any text, as long as the
-- numbers in them read back. Floats are the same only if they have the same sign, also if they are
-- zero.
structure KeepsAll (read : Reader α) (write : α → Json) (each : (Float → Prop) → α → Prop) :
    Prop where
  values : ∀ x, each (fun y => y.isFinite) x → each ReadsBack x → ComesBack read write x
  texts  : ∀ s x, decode read s = some x →
    each (fun y => y.isFinite) x ∧ (each ReadsBack x → ComesBack read write x)

theorem KeepsAll.of_lossless (h : Lossless read write each) : KeepsAll read write each where
  values _ hx hback := h.comesBack hx hback
  texts _ _ hs := ⟨h.of_decode hs, h.comesBack (h.of_decode hs)⟩

end Reader

open Reader (ComesBack KeepsAll)

-- For series, outcomes, and what an engine is built from.
theorem wireFormat_keepsAll [Json.Conversion] :
    KeepsAll Series.reader Series.toJson Series.Each ∧
    KeepsAll Recommendation.reader Recommendation.toJson Recommendation.Each ∧
    KeepsAll RecommendationSet.reader RecommendationSet.toJson RecommendationSet.Each ∧
    KeepsAll Tuning.reader Tuning.toJson Tuning.Each ∧
    KeepsAll Policy.reader Policy.toJson Policy.Each :=
  ⟨.of_lossless Series.lossless_reader, .of_lossless Recommendation.lossless_reader,
    .of_lossless RecommendationSet.lossless_reader, .of_lossless Tuning.lossless_reader,
    .of_lossless Policy.lossless_reader⟩

section Stepwise

-- Half an hour with one measured metric, and what may be recommended from it.

def halfHourSeries : Series :=
  SortedMap.ofList
    [(default, (Interval.bare 30.0).withMetric .cpuUsage ⟨0.25, 0.7, -0.0, 7.5, "cores"⟩)]

def halfHourRecommendation : Recommendation :=
  { Recommendation.ofWindow default default with
    hours := 0.5, config := (∅ : Allocation).set .requests .cpu ⟨0.7, "cores"⟩ }

attribute [local instance] Json.Conversion.stepwise

theorem wireFormat_keepsAll_halfHour :
    ComesBack Series.reader Series.toJson halfHourSeries ∧
    ComesBack Recommendation.reader Recommendation.toJson halfHourRecommendation ∧
    ComesBack RecommendationSet.reader RecommendationSet.toJson
      (SortedMap.ofList [("short_term", halfHourRecommendation)]) ∧
    ComesBack Tuning.reader Tuning.toJson default ∧
    ComesBack Policy.reader Policy.toJson .standard := by
  obtain ⟨hseries, hone, hall, htuning, hpolicy⟩ := wireFormat_keepsAll
  refine ⟨hseries.values _ ?_ ?_, hone.values _ ?_ ?_, hall.values _ ?_ ?_, htuning.values _ ?_ ?_,
    hpolicy.values _ ?_ ?_⟩
  all_goals decide +kernel

end Stepwise

end ContainerSizing
