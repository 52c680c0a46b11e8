/-! `lib/util.rs`: address ranges and bit fields. -/

namespace Shyper

/-- `PAGE_SIZE` -/
def pageSize : Nat := 4096

def roundUp (value step : UInt64) : UInt64 := (value + step - 1) / step * step

/-- `round_down` on a power of two. -/
def roundDown (value step : UInt64) : UInt64 := value &&& ~~~(step - 1)

def rangeInRange (base1 size1 base2 size2 : UInt64) : Bool :=
  decide (base1 ≥ base2) && decide (base1 + size1 ≤ base2 + size2)

/-- The range tested is the empty one at the address, so the end of the region counts as inside. -/
def inRange (addr base size : UInt64) : Bool := rangeInRange addr 0 base size

def bitExtract (bits off len : Nat) : Nat := (bits >>> off) &&& (1 <<< len - 1)

def bitGet (bits off : Nat) : Nat := (bits >>> off) &&& 1

def bitSet (bits off : Nat) : Nat := bits ||| 1 <<< off

end Shyper
