import Mathlib.Data.List.Infix
import Mathlib.Data.Rat.Floor

/-!
# The values the engines compute with

JSON values as Python holds them after `json.loads`, the built-in operations the engines
apply to them, and the exceptions these raise. A field of an alarm can hold any JSON value,
so every operation is total here: where Python raises, the result is an error.

What depends on the machine or on a parser stays a parameter (`Platform`): the rounding of
float arithmetic, `time.ctime`, the JSON text parser, `repr`, and the case mappings of `str`.
-/

namespace MonascaNotification

/-! ## Numbers and JSON -/

/-- A Python float. Both zeros are `fin 0`; Python compares them equal. -/
inductive PyFloat where
  | nan
  | inf (negative : Bool)
  | fin (q : Rat)
  deriving DecidableEq

/-- A value read by `json.loads`. The fields of an object are in the order of the dict. -/
inductive Json where
  | null
  | bool (b : Bool)
  | int (n : Int)
  | float (x : PyFloat)
  | str (s : String)
  | arr (xs : List Json)
  | obj (fields : List (String × Json))

namespace Json

mutual

def beq : Json → Json → Bool
  | .null, .null => true
  | .bool a, .bool b => a == b
  | .int a, .int b => a == b
  | .float a, .float b => a == b
  | .str a, .str b => a == b
  | .arr a, .arr b => beqList a b
  | .obj a, .obj b => beqFields a b
  | _, _ => false

def beqList : List Json → List Json → Bool
  | [], [] => true
  | a :: as, b :: bs => beq a b && beqList as bs
  | _, _ => false

def beqFields : List (String × Json) → List (String × Json) → Bool
  | [], [] => true
  | (k, a) :: as, (l, b) :: bs => k == l && beq a b && beqFields as bs
  | _, _ => false

end

mutual

theorem beq_iff : ∀ a b : Json, beq a b = true ↔ a = b
  | a, b => by
    cases a <;> cases b <;> simp [beq]
    · exact beqList_iff _ _
    · exact beqFields_iff _ _

theorem beqList_iff : ∀ a b : List Json, beqList a b = true ↔ a = b
  | [], [] => by simp [beqList]
  | [], _ :: _ => by simp [beqList]
  | _ :: _, [] => by simp [beqList]
  | a :: as, b :: bs => by simp [beqList, beq_iff a b, beqList_iff as bs]

theorem beqFields_iff : ∀ a b : List (String × Json), beqFields a b = true ↔ a = b
  | [], [] => by simp [beqFields]
  | [], _ :: _ => by simp [beqFields]
  | _ :: _, [] => by simp [beqFields]
  | (k, a) :: as, (l, b) :: bs => by simp [beqFields, beq_iff a b, beqFields_iff as bs]

end

instance : DecidableEq Json := fun a b => decidable_of_iff (beq a b = true) (beq_iff a b)

end Json

/-! ## Exceptions -/

/-- The `Error` of a database library. Only the error class and the MySQL code are looked at. -/
inductive DriverError where
  | duplicateEntry
  | integrityError
  | error
  deriving DecidableEq

/-- The exceptions that can be told apart by an `except` clause or carry a text of the source. -/
inductive PyExn where
  | keyError (key : String)
  | indexError
  | typeError
  | valueError
  | overflowError
  | osError
  | attributeError
  | unicodeDecodeError
  | unicodeEncodeError
  | alarmFormatError (message : String)
  | databaseException
  | driver (e : DriverError)
  | other (name : String)
  deriving DecidableEq

/-! ## The platform -/

/-- What the interpreter takes from the machine and from libraries outside the repository. -/
structure Platform where
  /-- The float nearest to an exact result; `inf` when it overflows. -/
  round : Rat → PyFloat
  /-- `time.ctime`, which asks the C library and may refuse a far timestamp. -/
  ctime : PyFloat → Except PyExn String
  /-- `json.loads` on a text that `json.dumps` did not write. -/
  loads : String → Except PyExn Json
  /-- `str` of a float, list or dict. -/
  repr : Json → String
  lower : String → String
  upper : String → String

/-- All characters are of ASCII. -/
def IsAscii (s : String) : Prop := ∀ c ∈ s.toList, c.toNat < 128

instance (s : String) : Decidable (IsAscii s) :=
  List.decidableBAll (fun c : Char => c.toNat < 128) s.toList

theorem isAscii_append {s t : String} : IsAscii (s ++ t) ↔ IsAscii s ∧ IsAscii t := by
  unfold IsAscii
  rw [String.toList_append]
  exact List.forall_mem_append

/--
What the text of a message takes from `simplejson` and from the C library. A text of Python may hold
lone surrogates, which `json.loads` lets in, and a `Char` is none: some characters stand for them.
-/
structure Rendering where
  /-- `json.dumps(j, indent=3)`, for a value that `json.loads` can read. It writes NaN as well. -/
  dumps : Json → String
  /-- `time.asctime(time.gmtime(seconds))`, which the C library may refuse. -/
  asctime : Int → Except PyExn String
  /-- The lone surrogate that a character stands for, if any. -/
  surrogate : Char → Option Nat
  asctime_ascii : ∀ {seconds text}, asctime seconds = .ok text → IsAscii text
  surrogate_ascii : ∀ {c : Char}, c.toNat < 128 → surrogate c = none

namespace Rendering

variable (R : Rendering)

/-- `s.encode('utf-8')` raises nothing. -/
def Encodable (s : String) : Prop := ∀ c ∈ s.toList, R.surrogate c = none

/-- Nor does `s.encode('utf-8', 'surrogateescape')`, which takes the surrogates for bytes. -/
def Escapable (s : String) : Prop :=
  ∀ c ∈ s.toList, ∀ code ∈ R.surrogate c, 0xDC80 ≤ code ∧ code ≤ 0xDCFF

instance (s : String) : Decidable (R.Encodable s) :=
  List.decidableBAll (fun c : Char => R.surrogate c = none) s.toList

instance (s : String) : Decidable (R.Escapable s) :=
  List.decidableBAll (fun c : Char => ∀ code ∈ R.surrogate c, 0xDC80 ≤ code ∧ code ≤ 0xDCFF)
    s.toList

theorem encodable_append {s t : String} :
    R.Encodable (s ++ t) ↔ R.Encodable s ∧ R.Encodable t := by
  unfold Encodable
  rw [String.toList_append]
  exact List.forall_mem_append

theorem escapable_append {s t : String} :
    R.Escapable (s ++ t) ↔ R.Escapable s ∧ R.Escapable t := by
  unfold Escapable
  rw [String.toList_append]
  exact List.forall_mem_append

theorem encodable_of_isAscii {s : String} (h : IsAscii s) : R.Encodable s :=
  fun c hc => R.surrogate_ascii (h c hc)

theorem Encodable.escapable {R : Rendering} {s : String} (h : R.Encodable s) : R.Escapable s := by
  intro c hc code hcode
  rw [h c hc] at hcode
  cases hcode

theorem escapable_of_isAscii {s : String} (h : IsAscii s) : R.Escapable s :=
  (R.encodable_of_isAscii h).escapable

/-- `email.mime.text.MIMEText(text, 'plain', 'utf-8')`, as far as it raises. -/
@[irreducible] def mimeText (text : String) : Except PyExn Unit :=
  if R.Escapable text then .ok () else .error .unicodeEncodeError

/-- `email.header.Header(subject, 'utf-8')`, as far as it raises. -/
@[irreducible] def header (subject : String) : Except PyExn Unit :=
  if R.Encodable subject then .ok () else .error .unicodeEncodeError

theorem mimeText_eq_ok {text : String} {u : Unit} :
    R.mimeText text = .ok u ↔ R.Escapable text := by
  unfold mimeText
  split <;> simp [*]

theorem header_eq_ok {subject : String} {u : Unit} :
    R.header subject = .ok u ↔ R.Encodable subject := by
  unfold header
  split <;> simp [*]

end Rendering

/-- The value of a Kafka message. `dumps j` is the text that `json.dumps` writes for `j`. -/
inductive KafkaValue where
  | bytes (b : ByteArray)
  | text (s : String)
  | dumps (j : Json)

instance : DecidableEq KafkaValue
  | .bytes b, .bytes b' => decidable_of_iff (b.data = b'.data) (by simp [ByteArray.ext_iff])
  | .text s, .text s' => decidable_of_iff (s = s') (by simp)
  | .dumps j, .dumps j' => decidable_of_iff (j = j') (by simp)
  | .bytes _, .text _ | .bytes _, .dumps _ | .text _, .bytes _ | .text _, .dumps _
  | .dumps _, .bytes _ | .dumps _, .text _ => .isFalse nofun

namespace Platform

variable (P : Platform)

/-- `json.loads`. It reads back what `json.dumps` wrote. -/
def jsonLoads : KafkaValue → Except PyExn Json
  | .bytes b =>
    match String.fromUTF8? b with
    | some s => P.loads s
    | none => .error .unicodeDecodeError
  | .text s => P.loads s
  | .dumps j => .ok j

/-- The conversion of an int to a float, as `float(n)` does it. -/
def intToFloat (n : Int) : Except PyExn PyFloat :=
  match P.round n with
  | .inf _ => .error .overflowError
  | x => .ok x

/-- `x - y` on floats. -/
def sub : PyFloat → PyFloat → PyFloat
  | .nan, _ => .nan
  | _, .nan => .nan
  | .inf a, .inf b => if a = b then .nan else .inf a
  | .inf a, .fin _ => .inf a
  | .fin _, .inf b => .inf !b
  | .fin q, .fin q' => P.round (q - q')

/-- `x / d` on floats, for a divisor `d > 0`. -/
def divFloat : PyFloat → Rat → PyFloat
  | .nan, _ => .nan
  | .inf a, _ => .inf a
  | .fin q, d => P.round (q / d)

/--
What `time.sleep` takes a positive duration for. It counts in nanoseconds, and the count must fit
a signed integer of 64 bits.
-/
def sleepDuration : PyFloat → Except PyExn Rat
  | .nan => .error .valueError
  | .inf _ => .error .overflowError
  | .fin q =>
    match P.round (q * 10 ^ 9) with
    | .fin nanoseconds => if nanoseconds.ceil < 2 ^ 63 then .ok q else .error .overflowError
    | _ => .error .overflowError

theorem sleepDuration_of_ceil_lt {q nanoseconds : Rat}
    (hround : P.round (q * 10 ^ 9) = .fin nanoseconds) (hlt : nanoseconds.ceil < 2 ^ 63) :
    P.sleepDuration (.fin q) = .ok q := by
  unfold sleepDuration
  dsimp only
  rw [hround]
  exact if_pos hlt

theorem sleepDuration_eq_ok {duration : PyFloat} {q : Rat}
    (h : P.sleepDuration duration = .ok q) : duration = .fin q := by
  cases duration with
  | nan => cases h
  | inf negative => cases h
  | fin q' =>
    unfold sleepDuration at h
    dsimp only at h
    split at h
    · split at h
      · cases h
        rfl
      · cases h
    · cases h

end Platform

/-! ## Comparisons and conversions of floats -/

namespace PyFloat

/-- `x > n`. Python compares a float with an int exactly. -/
def gtInt : PyFloat → Int → Bool
  | .nan, _ => false
  | .inf negative, _ => !negative
  | .fin q, n => decide ((n : Rat) < q)

/-- `int(x)`, which cuts towards zero. -/
def toInt : PyFloat → Except PyExn Int
  | .nan => .error .valueError
  | .inf _ => .error .overflowError
  | .fin q => .ok (q.num.tdiv q.den)

end PyFloat

/-! ## Operations on JSON values -/

namespace Json

variable (P : Platform)

/-- `j[key]` with a string key. -/
def getItem (j : Json) (key : String) : Except PyExn Json :=
  match j with
  | .obj fields =>
    match fields.lookup key with
    | some v => .ok v
    | none => .error (.keyError key)
  | _ => .error .typeError

/-- `field in j`: a key of a dict, an element of a list, a part of a string. -/
def contains (j : Json) (field : String) : Except PyExn Bool :=
  match j with
  | .obj fields => .ok (fields.lookup field).isSome
  | .arr xs => .ok (decide (Json.str field ∈ xs))
  | .str s => .ok (decide (field.toList <:+: s.toList))
  | _ => .error .typeError

/-- `bool(j)`. -/
def truthy : Json → Bool
  | .null => false
  | .bool b => b
  | .int n => n != 0
  | .float x => x != .fin 0
  | .str s => s != ""
  | .arr xs => !xs.isEmpty
  | .obj fields => !fields.isEmpty

/-- The number an arithmetic operator sees: `True` and `False` are ints. -/
def asInt? : Json → Option Int
  | .bool b => some (if b then 1 else 0)
  | .int n => some n
  | _ => none

/-- `j / d` for an int `d > 0`. Two ints are divided exactly and rounded once. -/
def divByInt (j : Json) (d : Nat) : Except PyExn PyFloat :=
  match j with
  | .float x => .ok (P.divFloat x d)
  | j =>
    match j.asInt? with
    | some n =>
      match P.round ((n : Rat) / d) with
      | .inf _ => .error .overflowError
      | x => .ok x
    | none => .error .typeError

/-- `j / d` for a float `d > 0`. An int is converted to a float before. -/
def divByFloat (j : Json) (d : Rat) : Except PyExn PyFloat :=
  match j with
  | .float x => .ok (P.divFloat x d)
  | j =>
    match j.asInt? with
    | some n => (P.intToFloat n).map fun x => P.divFloat x d
    | none => .error .typeError

/-- The float that a float operator makes of its other operand. -/
def toFloat (j : Json) : Except PyExn PyFloat :=
  match j with
  | .float x => .ok x
  | j =>
    match j.asInt? with
    | some n => P.intToFloat n
    | none => .error .typeError

/-- `j + 1`. -/
def succ (j : Json) : Except PyExn Json :=
  match j with
  | .float (.fin q) => .ok (.float (P.round (q + 1)))
  | .float x => .ok (.float x)
  | j =>
    match j.asInt? with
    | some n => .ok (.int (n + 1))
    | none => .error .typeError

/-- `j < n`. -/
def ltInt (j : Json) (n : Int) : Except PyExn Bool :=
  match j with
  | .float (.fin q) => .ok (decide (q < n))
  | .float (.inf negative) => .ok negative
  | .float .nan => .ok false
  | j =>
    match j.asInt? with
    | some m => .ok (decide (m < n))
    | none => .error .typeError

/-- `j == n`. -/
def eqInt (j : Json) (n : Int) : Bool :=
  match j with
  | .float x => x == .fin n
  | j => j.asInt? == some n

/-- `str(j)`. -/
def toStr (j : Json) : String :=
  match j with
  | .null => "None"
  | .bool b => if b then "True" else "False"
  | .int n => toString n
  | .str s => s
  | j => P.repr j

/-- `for x in j`. -/
def iterate : Json → Except PyExn (List Json)
  | .arr xs => .ok xs
  | .obj fields => .ok (fields.map fun f => .str f.1)
  | .str s => .ok (s.toList.map fun c => .str (String.singleton c))
  | _ => .error .typeError

/-- `j[0]`. -/
def first : Json → Except PyExn Json
  | .arr (x :: _) => .ok x
  | .arr [] => .error .indexError
  | .str s =>
    match s.toList with
    | c :: _ => .ok (.str (String.singleton c))
    | [] => .error .indexError
  | .obj _ => .error (.keyError "0")
  | _ => .error .typeError

/-- `j.items()`. -/
def items : Json → Except PyExn (List (String × Json))
  | .obj fields => .ok fields
  | _ => .error .attributeError

/-- `j.lower()`. -/
def lowered : Json → Except PyExn String
  | .str s => .ok (P.lower s)
  | _ => .error .attributeError

/-- The value that a number is compared by. -/
def number? : Json → Option PyFloat
  | .bool b => some (.fin (if b then 1 else 0))
  | .int n => some (.fin n)
  | .float x => some x
  | _ => none

mutual

/-- `a == b`. Numbers are compared by value, and dicts whatever the order of their keys. -/
def pyEq : Json → Json → Bool
  | .arr a, .arr b => pyEqList a b
  | .obj a, .obj b => a.length == b.length && pyEqFields a b
  | .str a, .str b => a == b
  | .null, .null => true
  | a, b =>
    match a.number?, b.number? with
    | some x, some y => x == y && x != .nan
    | _, _ => false

def pyEqList : List Json → List Json → Bool
  | [], [] => true
  | a :: as, b :: bs => pyEq a b && pyEqList as bs
  | _, _ => false

/-- Every field of the first dict is one of the second. -/
def pyEqFields : List (String × Json) → List (String × Json) → Bool
  | [], _ => true
  | (k, a) :: as, bs =>
    match bs.lookup k with
    | some b => pyEq a b && pyEqFields as bs
    | none => false

end

@[simp] theorem getItem_obj_of_lookup {fields : List (String × Json)} {key : String} {v : Json}
    (h : fields.lookup key = some v) : (Json.obj fields).getItem key = .ok v := by
  simp [getItem, h]

theorem getItem_eq_ok {j v : Json} {key : String} (h : j.getItem key = .ok v) :
    ∃ fields, j = .obj fields ∧ fields.lookup key = some v := by
  cases j with
  | obj fields =>
    simp only [getItem] at h
    cases hl : fields.lookup key with
    | none => rw [hl] at h; cases h
    | some w =>
      rw [hl] at h
      cases h
      exact ⟨fields, rfl, hl⟩
  | _ => cases h

end Json

end MonascaNotification
