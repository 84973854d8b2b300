import MonascaNotification.Python.Value

/-!
# A platform

`cpython` is a `Platform` that computes like CPython on a machine with binary64 floats, as far
as the engines are run on concrete messages: exact rounding to the nearest float (ties to even,
subnormal numbers and overflow included). Texts are not parsed by it, so a message that is run
on it is one that `json.dumps` wrote.
-/

namespace MonascaNotification

/-! ## Rounding -/

/-- `2 ^ e`. -/
def pow2 (e : Int) : Rat := if 0 ≤ e then 2 ^ e.toNat else 1 / 2 ^ (-e).toNat

/-- The exponent of `q ≠ 0`: the greatest `e` with `2 ^ e ≤ |q|`. -/
def exponent (q : Rat) : Int :=
  let e : Int := Nat.log2 q.num.natAbs - Nat.log2 q.den
  if pow2 e ≤ |q| then e else e - 1

def roundHalfEven (q : Rat) : Int :=
  let n := q.floor
  if q - n < 1 / 2 then n
  else if 1 / 2 < q - n then n + 1
  else if n % 2 = 0 then n else n + 1

/-- The binary64 number nearest to `q`: 53 significant bits, and no unit below `2 ^ -1074`. -/
def binary64 (q : Rat) : PyFloat :=
  if q = 0 then .fin 0
  else
    let unit := pow2 (max (exponent q - 52) (-1074))
    let v := roundHalfEven (q / unit) * unit
    if 2 ^ 1024 ≤ |v| then .inf (decide (q < 0)) else .fin v

example : binary64 (1 / 10) = .fin (3602879701896397 / 36028797018963968) := by decide +kernel

example : binary64 (-(2 ^ 1024)) = .inf true := by decide +kernel

/-! ## The platform -/

/-- The text is for the log only; what counts is which timestamps have one. -/
def ctime64 : PyFloat → Except PyExn String
  | .nan => .error .valueError
  | .inf _ => .error .overflowError
  | .fin q =>
    -- the year must fit a C `int`; what does not even fit `time_t` is refused before that
    if -67768040609740800 ≤ q ∧ q ≤ 67768036191676799 then .ok ""
    else if -2 ^ 63 ≤ q ∧ q < 2 ^ 63 then .error .osError
    else .error .overflowError

def cpython : Platform where
  round := binary64
  ctime := ctime64
  loads := fun _ => .error .valueError
  repr := fun _ => ""
  lower := String.toLower
  upper := String.toUpper

end MonascaNotification
