import OfflineProtocol.Message
import Mathlib.Algebra.Order.Field.Rat

/-! Refilling allowances. The source computes them in single-precision floating
point; the model takes that arithmetic as a parameter without laws, so nothing
proved over it depends on how the numbers round. -/
namespace OfflineProtocol

/-- The floating-point operations the forwarding code uses. -/
class AirArith (F : Type*) extends Zero F, One F, Add F, Sub F, Mul F, Div F, Max F, Min F where
  leB : F → F → Bool
  ltB : F → F → Bool
  ofCount : ℕ → F
  seconds : ℕ → F
  truncate : F → ℕ
  round : F → F

/-- Exact arithmetic in the place of floating point, rounding half away from
zero. -/
instance : AirArith ℚ where
  leB a b := decide (a ≤ b)
  ltB a b := decide (a < b)
  ofCount n := n
  seconds ms := ms / 1000
  truncate x := x.floor.toNat
  round x := if 0 ≤ x then ((x + 1 / 2).floor : ℚ) else -((-x + 1 / 2).floor : ℚ)

variable {F : Type*} [AirArith F]

def AirArith.clamp01 (x : F) : F := min (max x 0) 1

structure TokenBucket (F : Type*) where
  tokens : F
  capacity : F
  refillPerSec : F
  lastRefill : ℕ

namespace TokenBucket

def new (capacity refillPerSec : F) (now : ℕ) : TokenBucket F where
  tokens := max capacity 0
  capacity := max capacity 0
  refillPerSec := max refillPerSec 0
  lastRefill := now

def refill (b : TokenBucket F) (now : ℕ) : TokenBucket F :=
  let elapsed : F := AirArith.seconds (now - b.lastRefill)
  if AirArith.ltB 0 elapsed then
    { b with tokens := min (b.tokens + elapsed * b.refillPerSec) b.capacity, lastRefill := now }
  else b

def resize (b : TokenBucket F) (capacity refillPerSec : F) (now : ℕ) : TokenBucket F :=
  let b := b.refill now
  { b with
    capacity := max capacity 0
    refillPerSec := max refillPerSec 0
    tokens := min b.tokens (max capacity 0) }

def tryTakeAbove (b : TokenBucket F) (floor : F) (now : ℕ) : TokenBucket F × Bool :=
  let b := b.refill now
  if AirArith.leB (1 + floor) b.tokens then ({ b with tokens := b.tokens - 1 }, true)
  else (b, false)

def hasAbove (b : TokenBucket F) (floor : F) (now : ℕ) : TokenBucket F × Bool :=
  let b := b.refill now
  (b, AirArith.leB (1 + floor) b.tokens)

def spend (b : TokenBucket F) : TokenBucket F :=
  { b with tokens := max (b.tokens - 1) 0 }

end TokenBucket

end OfflineProtocol
