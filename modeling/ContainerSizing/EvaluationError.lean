import ContainerSizing.Decimal.Text
import ContainerSizing.Series.Metric
import ContainerSizing.Timestamp.Printer

namespace ContainerSizing

inductive EvaluationError where
  | emptyWindow (start stop : Timestamp)
  | invalidAggregate (time : Timestamp) (metric : Metric) (statistic : Statistic) (value : Float)
  | invalidDuration (time : Timestamp) (minutes : Float)
  | windowOutOfRange (stop : Timestamp) (minutes : Float)
  | noValues
deriving DecidableEq

namespace EvaluationError

def message : EvaluationError → String
  | emptyWindow start stop =>
    "no intervals fall inside the monitoring window " ++ start.messageText ++ " .. " ++
      stop.messageText
  | invalidAggregate time metric statistic value =>
    "invalid " ++ metric.name ++ "." ++ statistic.name ++ " value " ++ Decimal.plain value ++
      " in interval ending at " ++ time.messageText
  | invalidDuration time minutes =>
    "invalid interval duration of " ++ Decimal.plain minutes ++
      " minutes in interval ending at " ++ time.messageText
  | windowOutOfRange stop minutes =>
    "a window of " ++ Decimal.plain minutes ++ " minutes before " ++ stop.messageText ++
      " leaves the supported date range"
  | noValues => "cannot compute a percentile of an empty list"

end EvaluationError

end ContainerSizing
