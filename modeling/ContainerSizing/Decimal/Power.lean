namespace ContainerSizing.Decimal

def powerOfTen (n : Nat) : Nat :=
  Nat.pow 10 n

theorem powerOfTen_succ (n : Nat) : powerOfTen (n + 1) = powerOfTen n * 10 := rfl

theorem powerOfTen_pos (n : Nat) : 0 < powerOfTen n := by
  induction n with
  | zero => exact Nat.one_pos
  | succ n ih => exact Nat.mul_pos ih (Nat.succ_pos 9)

end ContainerSizing.Decimal
