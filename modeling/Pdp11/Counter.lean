/-! Counters that stick at their limit. Diagnostic counts and the count of
pending bus errors never wrap to zero, so a count of zero always means that
nothing was counted. -/

namespace Pdp11

/-- A count that never exceeds its limit. -/
structure Counter (limit : Nat) where
  value : Nat
  value_le : value ≤ limit
deriving DecidableEq

namespace Counter

variable {limit : Nat}

def zero : Counter limit := ⟨0, Nat.zero_le limit⟩

def ofNat (count : Nat) : Counter limit := ⟨min count limit, Nat.min_le_right count limit⟩

def bump (counter : Counter limit) : Counter limit := ofNat (counter.value + 1)

instance : Inhabited (Counter limit) := ⟨zero⟩

@[ext] theorem ext {left right : Counter limit} (same : left.value = right.value) : left = right := by
  cases left; cases right; cases same; rfl

end Counter

/-- Per-class fault counters are 16 bits wide. -/
abbrev ShortCounter := Counter 0xFFFF

abbrev LongCounter := Counter 0xFFFFFFFF

end Pdp11
