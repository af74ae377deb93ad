import ContainerSizing.Decimal.Text
import ContainerSizing.Recommendation.Allocation
import ContainerSizing.Text.Blank

namespace ContainerSizing.Report

def kibi : Float := 1024.0
def mebi : Float := 1048576.0
def gibi : Float := 1073741824.0

def bytesText (bytes : Float) : String :=
  if bytes ≥ gibi then Decimal.fixed 2 (bytes / gibi) ++ "Gi"
  else if bytes ≥ mebi then Decimal.fixed 2 (bytes / mebi) ++ "Mi"
  else if bytes ≥ kibi then Decimal.fixed 2 (bytes / kibi) ++ "Ki"
  else Decimal.fixed 0 bytes ++ "B"

-- Without the zeros at the end, and without a point that they leave behind.
def dropZeros (s : String) : String :=
  String.ofList (((s.toList.reverse.dropWhile (· = '0')).dropWhile (· = '.')).reverse)

-- At most two decimals from one core on, whole millicores below.
def coresText (cores : Float) : String :=
  if cores ≥ 1.0 then dropZeros (Decimal.fixed 2 cores)
  else toString (Binary64.toNearestNat (UInt64.size - 1) (cores * 1000.0)) ++ "m"

def cpuText (q : Quantity) : String :=
  match Text.lower q.unit with
  | "" | "cores" | "core" => coresText q.amount
  | "m" | "millicores" => coresText (q.amount / 1000.0)
  | _ => Decimal.fixed 3 q.amount ++ " " ++ q.unit

-- How many bytes a unit of memory stands for.
def unitBytes? (unit : String) : Option Float :=
  match Text.lower unit with
  | "" | "b" | "bytes" => some 1.0
  | "ki" | "kib" => some kibi
  | "mi" | "mib" => some mebi
  | "gi" | "gib" => some gibi
  | _ => none

def memoryText (q : Quantity) : String :=
  match unitBytes? q.unit with
  | some bytes => bytesText (q.amount * bytes)
  | none => Decimal.fixed 2 q.amount ++ " " ++ q.unit

-- A quantity that is left out is a dash.
def quantityText (text : Quantity → String) : Option Quantity → String
  | some q => text q
  | none => "-"

end ContainerSizing.Report
