import MonascaNotification.Python.Binary64
import MonascaNotification.Python.Integer

/-!
# A rendering

`cpythonText` writes documents and dates as `simplejson` and the C library write them. Floats
are written by `Platform.repr`.
-/

namespace MonascaNotification

/-! ## `json.dumps` -/

def hexDigit (n : Nat) : Char := if n < 10 then Char.ofNat (48 + n) else Char.ofNat (87 + n)

/-- `\uXXXX` for one UTF-16 code unit. -/
def escapeUnit (n : Nat) : String :=
  "\\u" ++ String.ofList [hexDigit (n / 4096 % 16), hexDigit (n / 256 % 16),
    hexDigit (n / 16 % 16), hexDigit (n % 16)]

/-- The last 2048 characters stand for the lone surrogates. They are for private use. -/
def surrogateOf (c : Char) : Option Nat :=
  if 0x10F800 ≤ c.toNat then some (c.toNat - 0x10F800 + 0xD800) else none

def escapeChar (c : Char) : String :=
  if let some code := surrogateOf c then escapeUnit code
  else if c = '"' then "\\\""
  else if c = '\\' then "\\\\"
  else if c = '\n' then "\\n"
  else if c = '\r' then "\\r"
  else if c = '\t' then "\\t"
  else if c.toNat = 8 then "\\b"
  else if c.toNat = 12 then "\\f"
  else if 32 ≤ c.toNat ∧ c.toNat < 127 then String.singleton c
  else if c.toNat < 65536 then escapeUnit c.toNat
  else escapeUnit (55296 + (c.toNat - 65536) / 1024) ++ escapeUnit (56320 + c.toNat % 1024)

def quoted (s : String) : String := "\"" ++ String.join (s.toList.map escapeChar) ++ "\""

/-- The end of a line and the indentation of the next. -/
def newLine (depth : Nat) : String := "\n" ++ String.ofList (List.replicate (3 * depth) ' ')

namespace Json

variable (P : Platform)

mutual

/-- `json.dumps(j, indent=3)`, inside `depth` lists and dicts. -/
def write (depth : Nat) : Json → String
  | .null => "null"
  | .bool b => if b then "true" else "false"
  | .int n => toString n
  | .float x => P.repr (.float x)
  | .str s => quoted s
  | .arr [] => "[]"
  | .arr (x :: xs) => "[" ++ newLine (depth + 1) ++ write (depth + 1) x ++
      writeRest (depth + 1) xs ++ newLine depth ++ "]"
  | .obj [] => "\x7b\x7d"
  | .obj ((k, x) :: fields) => "\x7b" ++ newLine (depth + 1) ++ quoted k ++ ": " ++
      write (depth + 1) x ++ writeFields (depth + 1) fields ++ newLine depth ++ "\x7d"

def writeRest (depth : Nat) : List Json → String
  | [] => ""
  | x :: xs => "," ++ newLine depth ++ write depth x ++ writeRest depth xs

def writeFields (depth : Nat) : List (String × Json) → String
  | [] => ""
  | (k, x) :: fields => "," ++ newLine depth ++ quoted k ++ ": " ++ write depth x ++
      writeFields depth fields

end

end Json

/-! ## `time.asctime` -/

def weekdays : List String := ["Sun", "Mon", "Tue", "Wed", "Thu", "Fri", "Sat"]

def months : List String :=
  ["Jan", "Feb", "Mar", "Apr", "May", "Jun", "Jul", "Aug", "Sep", "Oct", "Nov", "Dec"]

/-- `%3d` for a number below 100. -/
def padded (n : Nat) : String := (if n < 10 then "  " else " ") ++ toString n

/-- `%.2d`. -/
def twoDigits (n : Nat) : String := (if n < 10 then "0" else "") ++ toString n

/--
The date in the Gregorian calendar. Years are counted from March, so that the leap day is the
last of its year, and days from the first of March of the year 0.
-/
def calendarText (seconds : Int) : String :=
  let days := seconds / 86400
  let second := (seconds % 86400).toNat
  let era := (days + 719468) / 146097
  let dayOfEra := ((days + 719468) % 146097).toNat
  let yearOfEra := (dayOfEra - dayOfEra / 1460 + dayOfEra / 36524 - dayOfEra / 146096) / 365
  let dayOfYear := dayOfEra - (365 * yearOfEra + yearOfEra / 4 - yearOfEra / 100)
  let marchMonth := (5 * dayOfYear + 2) / 153
  let day := dayOfYear - (153 * marchMonth + 2) / 5 + 1
  let month := (marchMonth + 2) % 12
  let year := 400 * era + yearOfEra + (if month < 2 then 1 else 0)
  (weekdays.getD ((days + 4) % 7).toNat "") ++ " " ++ months.getD month "" ++ padded day ++ " " ++
    twoDigits (second / 3600) ++ ":" ++ twoDigits (second / 60 % 60) ++ ":" ++
    twoDigits (second % 60) ++ " " ++ toString year

/-- The year must fit a C `int`, and the seconds `time_t`. -/
def asctime64 (seconds : Int) : Except PyExn String :=
  if -67768040609740800 ≤ seconds ∧ seconds ≤ 67767976233532799 then .ok (calendarText seconds)
  -- `time.gmtime` goes on to the end of the year 2147485547
  else if 67767976233532799 < seconds ∧ seconds ≤ 67768036191676799 then .error .overflowError
  else if -2 ^ 63 ≤ seconds ∧ seconds < 2 ^ 63 then .error .osError
  else .error .overflowError

theorem isAscii_getD {l : List String} (h : ∀ s ∈ l, IsAscii s) (n : Nat) :
    IsAscii (l.getD n "") := by
  rw [List.getD_eq_getElem?_getD]
  cases hs : l[n]? with
  | none => decide
  | some s => exact h s (List.mem_of_getElem? hs)

theorem isAscii_padded (n : Nat) : IsAscii (padded n) := by
  refine isAscii_append.mpr ⟨?_, isAscii_toString n⟩
  split <;> decide

theorem isAscii_twoDigits (n : Nat) : IsAscii (twoDigits n) := by
  refine isAscii_append.mpr ⟨?_, isAscii_toString n⟩
  split <;> decide

theorem isAscii_calendarText (seconds : Int) : IsAscii (calendarText seconds) := by
  have hblank : IsAscii " " := by decide
  have hcolon : IsAscii ":" := by decide
  have hweekday : ∀ n, IsAscii (weekdays.getD n "") := isAscii_getD (by decide)
  have hmonth : ∀ n, IsAscii (months.getD n "") := isAscii_getD (by decide)
  simp only [calendarText, isAscii_append, hblank, hcolon, hweekday, hmonth, isAscii_padded,
    isAscii_twoDigits, isAscii_toString, and_self]

def cpythonText : Rendering where
  dumps := Json.write cpython 0
  asctime := asctime64
  surrogate := surrogateOf
  asctime_ascii := by
    intro seconds text h
    unfold asctime64 at h
    split at h
    · cases h
      exact isAscii_calendarText seconds
    · split at h
      · cases h
      · split at h <;> cases h
  surrogate_ascii := fun h => if_neg (by omega)

example : asctime64 1700000000 = .ok "Tue Nov 14 22:13:20 2023" := by decide +kernel

end MonascaNotification
