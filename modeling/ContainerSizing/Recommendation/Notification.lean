import ContainerSizing.Json.Reader

namespace ContainerSizing

inductive Setting where
  | requests
  | limits
deriving DecidableEq, Repr

inductive Resource where
  | cpu
  | memory
deriving DecidableEq, Repr

namespace Setting

def name : Setting → String
  | requests => "requests"
  | limits => "limits"

def ofName? : String → Option Setting
  | "requests" => some requests
  | "limits" => some limits
  | _ => none

end Setting

namespace Resource

def name : Resource → String
  | cpu => "cpu"
  | memory => "memory"

def ofName? : String → Option Resource
  | "cpu" => some cpu
  | "memory" => some memory
  | _ => none

end Resource

inductive Severity where
  | info
  | notice
  | warning
  | error
  | critical
deriving DecidableEq, Repr

namespace Severity

def all : List Severity :=
  [info, notice, warning, error, critical]

def name : Severity → String
  | info => "info"
  | notice => "notice"
  | warning => "warning"
  | error => "error"
  | critical => "critical"

def ofName? (s : String) : Option Severity :=
  all.find? fun v => v.name = s

theorem ofName?_name (v : Severity) : ofName? v.name = some v := by
  cases v <;> decide

end Severity

inductive NotificationKind where
  | notEnoughData
  | cpuRecordsAreIdle
  | cpuRecordsAreZero
  | memoryRecordsAreZero
  | cpuRequestNotSet
  | cpuLimitNotSet
  | memoryRequestNotSet
  | memoryLimitNotSet
  | calculationFailed
deriving DecidableEq, Repr

namespace NotificationKind

def all : List NotificationKind :=
  [notEnoughData, cpuRecordsAreIdle, cpuRecordsAreZero, memoryRecordsAreZero, cpuRequestNotSet,
    cpuLimitNotSet, memoryRequestNotSet, memoryLimitNotSet, calculationFailed]

def name : NotificationKind → String
  | notEnoughData => "NOT_ENOUGH_DATA"
  | cpuRecordsAreIdle => "CPU_RECORDS_ARE_IDLE"
  | cpuRecordsAreZero => "CPU_RECORDS_ARE_ZERO"
  | memoryRecordsAreZero => "MEMORY_RECORDS_ARE_ZERO"
  | cpuRequestNotSet => "CPU_REQUEST_NOT_SET"
  | cpuLimitNotSet => "CPU_LIMIT_NOT_SET"
  | memoryRequestNotSet => "MEMORY_REQUEST_NOT_SET"
  | memoryLimitNotSet => "MEMORY_LIMIT_NOT_SET"
  | calculationFailed => "CALCULATION_FAILED"

def ofName? (s : String) : Option NotificationKind :=
  all.find? fun k => k.name = s

theorem ofName?_name (k : NotificationKind) : ofName? k.name = some k := by
  cases k <;> decide

def severity : NotificationKind → Severity
  | notEnoughData => .info
  | cpuRecordsAreIdle | cpuRecordsAreZero | memoryRecordsAreZero => .notice
  | cpuLimitNotSet => .warning
  | calculationFailed => .error
  | cpuRequestNotSet | memoryRequestNotSet | memoryLimitNotSet => .critical

-- The first digit goes with the severity, the next two with the resource.
def code : NotificationKind → UInt32
  | notEnoughData => 120001
  | calculationFailed => 221001
  | cpuRecordsAreIdle => 323001
  | cpuRecordsAreZero => 323002
  | memoryRecordsAreZero => 324001
  | cpuLimitNotSet => 423001
  | cpuRequestNotSet => 523001
  | memoryRequestNotSet => 524001
  | memoryLimitNotSet => 524002

def usualMessage : NotificationKind → String
  | notEnoughData => "There is not enough data available to generate a recommendation."
  | cpuRecordsAreIdle =>
    "CPU usage is less than a millicore, no CPU recommendations can be generated"
  | cpuRecordsAreZero => "CPU usage is zero, no CPU recommendations can be generated"
  | memoryRecordsAreZero => "Memory usage is zero, no memory recommendations can be generated"
  | cpuRequestNotSet => "CPU request not set"
  | cpuLimitNotSet => "CPU limit not set"
  | memoryRequestNotSet => "Memory request not set"
  | memoryLimitNotSet => "Memory limit not set"
  | calculationFailed => "Recommendation calculation failed"

-- The kind that says that a container does not set a resource.
def notSet : Setting → Resource → NotificationKind
  | .requests, .cpu => cpuRequestNotSet
  | .limits, .cpu => cpuLimitNotSet
  | .requests, .memory => memoryRequestNotSet
  | .limits, .memory => memoryLimitNotSet

end NotificationKind

structure Notification where
  severity : Severity
  code : UInt32
  kind : NotificationKind
  message : String
deriving DecidableEq

namespace Notification

def withMessage (kind : NotificationKind) (message : String) : Notification :=
  ⟨kind.severity, kind.code, kind, message⟩

def ofKind (kind : NotificationKind) : Notification :=
  withMessage kind kind.usualMessage

def toJson (n : Notification) : Json :=
  .record [("type", .text n.severity.name), ("code", .natural n.code.toNat),
    ("kind", .text n.kind.name), ("message", .text n.message)]

def reader [Json.Conversion] : Reader Notification :=
  Reader.record ["type", "code", "kind", "message"] fun ms =>
    Notification.mk <$> ms.required "type" (Reader.choice Severity.ofName?)
      <*> ms.required "code" Reader.uint32
      <*> ms.required "kind" (Reader.choice NotificationKind.ofName?)
      <*> ms.required "message" Reader.text

end Notification

end ContainerSizing
