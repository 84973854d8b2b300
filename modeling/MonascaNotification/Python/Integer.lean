import MonascaNotification.Python.Value

/-!
# Integers as text

`str` of an integer, and `int` of a text. Only the digits of ASCII and a minus are read here: these
are what `str` writes.
-/

namespace MonascaNotification

/-- `int(text)` of a plain numeral: without blanks, underscores or a plus sign. -/
def intOfText (text : String) : Except PyExn Int :=
  let negative := text.toList.head? = some '-'
  let digits := if negative then text.toList.drop 1 else text.toList
  if digits ≠ [] ∧ digits.all Char.isDigit then
    let n := Nat.ofDigitChars 10 digits 0
    .ok (if negative then -n else n)
  else .error .valueError

theorem isDigit_of_mem_toString {n : Nat} {c : Char} (h : c ∈ (toString n).toList) :
    c.isDigit = true := by
  rw [Nat.toString_eq_ofList_toDigits, String.toList_ofList] at h
  exact Nat.isDigit_of_mem_toDigits (by decide) (by decide) h

theorem toString_negSucc (n : Nat) :
    (toString (Int.negSucc n)).toList = '-' :: (toString (n + 1)).toList :=
  String.toList_append

/-- `str(n)` is a numeral, with a minus before it if `n` is negative. -/
theorem mem_toString {n : Int} {c : Char} (h : c ∈ (toString n).toList) :
    c = '-' ∨ c.isDigit = true := by
  cases n with
  | ofNat n => exact .inr (isDigit_of_mem_toString (n := n) h)
  | negSucc n =>
    rw [toString_negSucc] at h
    rcases List.mem_cons.mp h with rfl | h
    · exact .inl rfl
    · exact .inr (isDigit_of_mem_toString h)

/-- No other ASCII character is in it. -/
theorem not_mem_toString (n : Int) {d : Char} (hminus : d ≠ '-') (hdigit : d.isDigit = false) :
    d ∉ (toString n).toList := by
  intro h
  rcases mem_toString h with rfl | hd
  · exact hminus rfl
  · rw [hdigit] at hd
    cases hd

theorem isAscii_of_isDigit {s : String} (h : ∀ c ∈ s.toList, c = '-' ∨ c.isDigit = true) :
    IsAscii s := by
  intro c hc
  rcases h c hc with rfl | hd
  · decide
  · have hle : c.toNat ≤ 57 := (Char.isDigit_iff_toNat.mp hd).2
    omega

theorem isAscii_toString (n : Int) : IsAscii (toString n) :=
  isAscii_of_isDigit fun _ => mem_toString

theorem toString_ne_empty (n : Int) : toString n ≠ "" := by
  cases n with
  | ofNat n => exact Nat.repr_ne_empty
  | negSucc n =>
    intro h
    have hlist := toString_negSucc n
    rw [h] at hlist
    cases hlist

theorem intOfText_digits {digits : List Char} (hne : digits ≠ [])
    (h : ∀ c ∈ digits, c.isDigit = true) :
    intOfText (String.ofList digits) = .ok (Nat.ofDigitChars 10 digits 0) ∧
      intOfText (String.ofList ('-' :: digits)) = .ok (-Nat.ofDigitChars 10 digits 0) := by
  have hhead : digits.head? ≠ some '-' := by
    intro hhead
    have hminus := h '-' (List.mem_of_head? hhead)
    exact absurd hminus (by decide)
  have hall : digits.all Char.isDigit = true := List.all_eq_true.mpr h
  constructor
  · rw [intOfText, String.toList_ofList]
    simp [hhead, hne, hall]
  · rw [intOfText, String.toList_ofList]
    simp [hne, hall]

/-- `int(str(n)) == n` -/
theorem intOfText_toString (n : Int) : intOfText (toString n) = .ok n := by
  have hdigits : ∀ n : Nat, ∀ c ∈ Nat.toDigits 10 n, c.isDigit = true := fun n c hc =>
    Nat.isDigit_of_mem_toDigits (by decide) (by decide) hc
  cases n with
  | ofNat n =>
    have h := (intOfText_digits Nat.toDigits_ne_nil (hdigits n)).1
    rw [← Nat.toString_eq_ofList_toDigits, Nat.ofDigitChars_ten_toDigits] at h
    exact h
  | negSucc n =>
    have h := (intOfText_digits Nat.toDigits_ne_nil (hdigits (n + 1))).2
    have htext : toString (Int.negSucc n) = String.ofList ('-' :: Nat.toDigits 10 (n + 1)) := by
      refine String.toList_inj.mp ?_
      rw [toString_negSucc, Nat.toString_eq_ofList_toDigits, String.toList_ofList,
        String.toList_ofList]
    rw [Nat.ofDigitChars_ten_toDigits] at h
    rw [htext, h]
    rfl

end MonascaNotification
