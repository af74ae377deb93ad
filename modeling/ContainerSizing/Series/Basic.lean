import ContainerSizing.Series.Interval
import ContainerSizing.SortedMap
import ContainerSizing.Timestamp.Parser

namespace ContainerSizing

-- Intervals by the instants at which they end.
abbrev Series := SortedMap Timestamp Interval

namespace Series

-- The intervals that end at `stop` or before it, the latest first.
def untilDesc (s : Series) (stop : Timestamp) : List (Timestamp × Interval) :=
  (s.entries.filter fun e => e.1 ≤ stop).reverse

-- The intervals that end in `[start, stop]`; an inverted range is read as `[start, start]`.
def range (s : Series) (start stop : Timestamp) : List (Timestamp × Interval) :=
  let stop := if stop < start then start else stop
  s.entries.filter fun e => start ≤ e.1 ∧ e.1 ≤ stop

def earliest? (s : Series) : Option Timestamp :=
  s.keys.head?

def latest? (s : Series) : Option Timestamp :=
  s.keys.getLast?

-- The durations of all intervals, added in chronological order.
def totalMinutes (s : Series) : Float :=
  Binary64.sum (s.values.map Interval.minutes)

theorem mem_untilDesc {s : Series} {stop : Timestamp} {e : Timestamp × Interval} :
    e ∈ s.untilDesc stop ↔ e ∈ s.entries ∧ e.1 ≤ stop := by
  simp [untilDesc]

theorem mem_range {s : Series} {start stop : Timestamp} {e : Timestamp × Interval}
    (h : e ∈ s.range start stop) : e ∈ s.entries ∧ start ≤ e.1 := by
  simp only [range, List.mem_filter, decide_eq_true_eq] at h
  exact ⟨h.1, h.2.1⟩

def toJson (s : Series) : Json :=
  .record (s.entries.map fun (t, i) => (t.isoText, i.toJson))

def reader [Json.Conversion] : Reader Series := fun v =>
  SortedMap.ofList <$> Reader.mapping Timestamp.ofText? Interval.reader v

end Series

end ContainerSizing
