/-!
What amplitudes need of machine numbers beyond their own operations: a total order, and the length
of a vector at every scale, its last digit included. Whether an amplitude is neglected hangs on that
digit, so the steps below are taken in exactly this order. That the length is off by less than one
unit in the last place is measured, not shown.
-/

namespace SparseQuantum.MachineFloat

/-- A number whose order is the total order of the floats with these bits. -/
def orderKey (bits : UInt64) : Nat :=
  if bits < 0x8000000000000000 then bits.toNat + 0x8000000000000000
  else UInt64.size - 1 - bits.toNat

def infinity : Float := Float.ofBits 0x7FF0000000000000

def powerOfTwo (exponent : Int) : Float :=
  Float.ofBits (UInt64.ofNat (exponent + 1023).toNat <<< 52)

/-- The root of two squares, taken of the larger coordinate and the smaller. The rounded root's
square has a surplus of `root² - large² - small²`, which is worked out from what the root has more
than one of the coordinates, so that no two close squares are subtracted; half of it over the root
is taken back. Neither square may overflow or vanish. -/
def correctedRoot (large small : Float) : Float :=
  let root := (large * large + small * small).sqrt
  let surplus :=
    if root ≤ 2 * small then
      let rest := root - small
      large * (2 * rest - large) + (rest - 2 * (large - small)) * rest
    else
      let rest := root - large
      2 * rest * (large - 2 * small) + ((4 * rest - small) * small + rest * rest)
  root - surplus / (2 * root)

/-- The length of a finite vector whose coordinates are not negative and come in order. A smaller
one that cannot change the length is added to the larger, which is also what happens to zeros.
Squares that would leave the floats' range are kept inside by scaling both coordinates with a power
of two. -/
def lengthOfOrdered (large small : Float) : Float :=
  if powerOfTwo 511 < large then
    if small ≤ large * powerOfTwo (-54) then large + small
    else correctedRoot (large * powerOfTwo (-600)) (small * powerOfTwo (-600)) * powerOfTwo 600
  else if small < powerOfTwo (-459) then
    if small * powerOfTwo 54 ≤ large then large + small
    else correctedRoot (large * powerOfTwo 600) (small * powerOfTwo 600) * powerOfTwo (-600)
  else if small ≤ large * powerOfTwo (-54) then large + small
  else correctedRoot large small

/-- The length of the vector with the two given coordinates. An infinite one decides, also against
one that is undefined. -/
def hypot (x y : Float) : Float :=
  if x.abs == infinity || y.abs == infinity then infinity
  else if x.isNaN || y.isNaN then x + y
  else if x.abs < y.abs then lengthOfOrdered y.abs x.abs
  else lengthOfOrdered x.abs y.abs

end SparseQuantum.MachineFloat
