import ContainerSizing.Policy
import ContainerSizing.Series.Basic
import ContainerSizing.Statistics

namespace ContainerSizing

-- How a walk over intervals ends: it runs out, it meets a bad duration, or it reaches its goal.
inductive Walk where
  | exhausted (minutes : Float)
  | invalid (stop : Timestamp) (interval : Interval)
  | reached (stop : Timestamp) (interval : Interval) (minutes : Float)

namespace Walk

-- Collects minutes on top of those collected so far, until they come to `goal`.
def run (goal collected : Float) : List (Timestamp × Interval) → Walk
  | [] => exhausted collected
  | (t, i) :: rest =>
    if Binary64.isMeasure i.minutes then
      let collected := collected + i.minutes
      if collected ≥ goal then reached t i collected else run goal collected rest
    else
      invalid t i

-- The walk that looks for the window of a term.
def ofTerm (series : Series) (term : Term) (stop : Timestamp) : Walk :=
  run term.leastMinutes 0.0 (series.untilDesc stop)

-- The window starts where the interval begins that the walk stopped at.
def start? : Walk → Except EvaluationError (Option Timestamp)
  | exhausted _ => .ok none
  | invalid t i => .error (.invalidDuration t i.minutes)
  | reached t i _ => some <$> i.start t

theorem mem_of_run_eq_reached {goal collected m : Float} {es : List (Timestamp × Interval)}
    {t : Timestamp} {i : Interval} (h : run goal collected es = reached t i m) : (t, i) ∈ es := by
  induction es generalizing collected with
  | nil => cases h
  | cons e es ih =>
    simp only [run] at h
    split at h
    · split at h
      · injection h with ht hi
        rw [← ht, ← hi]
        exact List.mem_cons_self ..
      · exact List.mem_cons_of_mem _ (ih h)
    · cases h

end Walk

structure Window where
  start : Timestamp
  stop : Timestamp
  intervals : List (Timestamp × Interval)

namespace Window

-- The intervals that end in `[start, stop]`, if there are any and all of them are valid.
def ofSeries (series : Series) (start stop : Timestamp) : Except EvaluationError Window :=
  let found := series.range start stop
  match found.findSome? fun (t, i) => i.fault? t with
  | some e => .error e
  | none => if found.isEmpty then .error (.emptyWindow start stop) else .ok ⟨start, stop, found⟩

theorem intervals_of_ofSeries {series : Series} {start stop : Timestamp} {w : Window}
    (h : ofSeries series start stop = .ok w) : w.intervals = series.range start stop := by
  simp only [ofSeries] at h
  split at h
  case h_1 => cases h
  case h_2 =>
    split at h <;> cases h
    rfl

theorem intervals_ne_nil {series : Series} {start stop : Timestamp} {w : Window}
    (h : ofSeries series start stop = .ok w) : w.intervals ≠ [] := by
  simp only [ofSeries] at h
  split at h
  case h_1 => cases h
  case h_2 =>
    split at h
    case isTrue => cases h
    case isFalse hne =>
      cases h
      simpa using hne

def size (w : Window) : Nat :=
  w.intervals.length

def get? (w : Window) (t : Timestamp) : Option Interval :=
  (w.intervals.find? fun e => e.1 = t).map (·.2)

-- A value of every interval, in chronological order.
def values (w : Window) (f : Interval → Float) : List Float :=
  w.intervals.map fun e => f e.2

-- The pods of one interval, as its CPU usage tells.
def intervalPods (i : Interval) : UInt32 :=
  Statistics.pods (i.value .cpuUsage .total) (i.value .cpuUsage .average)

-- The largest pod count of all intervals.
def pods (w : Window) : UInt32 :=
  (w.intervals.map fun e => intervalPods e.2).foldl max 0

-- The first unit that is not empty, of the first metric that has one.
def firstUnit (w : Window) (metrics : List Metric) : String :=
  (metrics.findSome? fun m =>
    (w.intervals.filterMap fun e => (e.2.metrics m).map Aggregate.unit).find? (· ≠ "")).getD ""

def totalMinutes (w : Window) : Float :=
  Binary64.sum (w.values Interval.minutes)

end Window

end ContainerSizing
