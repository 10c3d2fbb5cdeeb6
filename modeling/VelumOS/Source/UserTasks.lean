import VelumOS.Source.Libc

/-!
# Built-in tasks

`src/user_tasks.cpp`. The test `x * x + y * y <= 1.0` on two draws of `rand()` is
a parameter, since it is computed in floating point. Counters are the machine
words of the code. The sleep at the end of a task has no effect on its result.
-/
namespace VelumOS.Source

/-- The loop of `task_compute_pi`: `n` more pairs of draws, and the draws left. -/
def computePiLoop (inCircle : Nat → Nat → Bool) : Nat → Int32 → Rand → Int32 × Rand
  | 0, inside, rand => (inside, rand)
  | n + 1, inside, rand =>
    let x := rand 0
    let y := rand 1
    computePiLoop inCircle n (if inCircle x y then inside + 1 else inside) (rand.drop 2)

def taskComputePi (inCircle : Nat → Nat → Bool) (rand : Rand) (iterations : UInt32) :
    Int32 × Rand :=
  computePiLoop inCircle iterations.toNat 0 rand

/-- The inner loop of `task_find_primes` from `div` on; `div * div` is the 32-bit
product. `div` has 2 ^ 32 values, so a loop still going after that many steps
goes on for ever. -/
def trialDivision (num : UInt32) : Nat → UInt32 → Except Fault Bool
  | 0, _ => .error .hang
  | steps + 1, div =>
    if div * div ≤ num then
      if div = 0 then .error .divisionByZero
      else if num % div = 0 then .ok false
      else trialDivision num steps (div + 1)
    else .ok true

/-- The outer loop of `task_find_primes`: `n` more numbers from `num` on. -/
def findPrimesLoop : Nat → UInt32 → Int32 → Except Fault Int32
  | 0, _, count => .ok count
  | n + 1, num, count => do
    let prime ← trialDivision num (2 ^ 32) 2
    findPrimesLoop n (num + 1) (if prime then count + 1 else count)

def taskFindPrimes (limit : UInt32) : Except Fault Int32 :=
  findPrimesLoop (limit.toNat - 2) 2 0

end VelumOS.Source
