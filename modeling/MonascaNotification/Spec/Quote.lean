import MonascaNotification.Python.Quote

/-!
# What `unquote` changes

Nothing, exactly when a text has no escape. The reason is the length: a byte is at most one
character, so that a text with an escape gets shorter (`length_unquote_eq_iff`).
-/

namespace MonascaNotification.Urlparse

/-- A `%` and two hexadecimal digits, somewhere. -/
def hasEscape : List Char → Bool
  | '%' :: a :: b :: rest =>
    (hexValue a).isSome && (hexValue b).isSome || hasEscape (a :: b :: rest)
  | _ :: rest => hasEscape rest
  | [] => false

theorem hasEscape_of_not_mem {s : List Char} (h : '%' ∉ s) : hasEscape s = false := by
  induction s using hasEscape.induct with
  | case1 a b rest ih => exact absurd List.mem_cons_self h
  | case2 c rest hc ih =>
    rw [hasEscape]
    · exact ih fun hmem => h (List.mem_cons_of_mem _ hmem)
    · exact hc
  | case3 => rfl

/-! ## The length -/

/-- The characters that the decoder still owes. -/
def Utf8.pending : Utf8 → Nat
  | .start => 0
  | .inside _ _ _ _ => 1

theorem Utf8.length_first (byte : Nat) :
    (Utf8.first byte).1.length + (Utf8.first byte).2.pending = 1 := by
  rw [first]
  split
  · rfl
  · split
    · rfl
    · split
      · rfl
      · split
        · rfl
        · rfl

theorem Utf8.length_next_le (byte : Nat) (state : Utf8) :
    (state.next byte).1.length + (state.next byte).2.pending ≤ state.pending + 1 := by
  have hfirst := length_first byte
  cases state with
  | start => exact Nat.le_of_eq (hfirst.trans (Nat.zero_add 1).symm)
  | inside bits more lower upper =>
    rw [next.eq_def]
    dsimp only
    split
    · cases more with
      | zero => exact Nat.le_succ 1
      | succ more => exact Nat.le_succ 1
    · show (first byte).1.length + 1 + (first byte).2.pending ≤ 1 + 1
      omega

theorem Utf8.length_flush (state : Utf8) : state.flush.length = state.pending := by
  cases state <;> rfl

theorem length_decode_le (state : Utf8) (ps : List Piece) :
    (decode state ps).length ≤ state.pending + ps.length := by
  induction ps generalizing state with
  | nil => exact Nat.le_of_eq (Utf8.length_flush state)
  | cons p ps ih =>
    cases p with
    | byte b =>
      have hnext := Utf8.length_next_le b state
      have hrest := ih (state.next b).2
      rw [decode, List.length_append, List.length_cons]
      omega
    | char c =>
      have hrest := ih .start
      rw [decode, List.length_append, List.length_cons, List.length_cons, Utf8.length_flush]
      dsimp only [Utf8.pending] at hrest
      omega

/-- The pieces of a text without escapes are its characters. -/
theorem pieces_of_not_hasEscape {s : List Char} (h : hasEscape s = false) :
    pieces s = s.map fun c => if c.toNat < 0x80 then .byte c.toNat else .char c := by
  induction s using pieces.induct with
  | case1 a b rest x y hx hy ih =>
    rw [hasEscape, hx, hy] at h
    cases h
  | case2 a b rest hnone ih =>
    rw [hasEscape, Bool.or_eq_false_iff] at h
    rw [pieces, List.map_cons, ← ih h.2]
    split
    · next x y hx hy => exact absurd hy (hnone x y hx)
    · rfl
  | case3 c rest hc ih =>
    rw [hasEscape] at h
    · rw [pieces, List.map_cons, ih h]
      exact hc
    · exact hc
  | case4 => rfl

theorem length_pieces_le (s : List Char) : (pieces s).length ≤ s.length := by
  induction s using pieces.induct with
  | case1 a b rest x y hx hy ih =>
    rw [pieces, hx, hy]
    dsimp only [List.length_cons]
    omega
  | case2 a b rest hnone ih =>
    rw [pieces]
    split
    · next x y hx hy => exact absurd hy (hnone x y hx)
    · exact Nat.succ_le_succ ih
  | case3 c rest hc ih =>
    rw [pieces]
    · exact Nat.succ_le_succ ih
    · exact hc
  | case4 => exact Nat.le_refl 0

theorem length_pieces_lt {s : List Char} (h : hasEscape s = true) :
    (pieces s).length < s.length := by
  -- an escape takes three characters and leaves one byte
  induction s using pieces.induct with
  | case1 a b rest x y hx hy ih =>
    have hrest := length_pieces_le rest
    rw [pieces, hx, hy]
    dsimp only [List.length_cons]
    omega
  | case2 a b rest hnone ih =>
    have hpair : ((hexValue a).isSome && (hexValue b).isSome) = false := by
      cases hx : hexValue a with
      | none => rfl
      | some x =>
        cases hy : hexValue b with
        | none => rfl
        | some y => exact absurd hy (hnone x y hx)
    rw [hasEscape, hpair, Bool.false_or] at h
    rw [pieces]
    split
    · next x y hx hy => exact absurd hy (hnone x y hx)
    · exact Nat.succ_lt_succ (ih h)
  | case3 c rest hc ih =>
    rw [hasEscape] at h
    · rw [pieces]
      · exact Nat.succ_lt_succ (ih h)
      · exact hc
    · exact hc
  | case4 => cases h

theorem length_unquote_le (s : List Char) : (unquote s).length ≤ s.length := by
  have hdecode := length_decode_le .start (pieces s)
  have hpieces := length_pieces_le s
  rw [unquote]
  dsimp only [Utf8.pending] at hdecode
  omega

/-! ## Texts without escapes -/

theorem decode_chars (s : List Char) :
    decode .start (s.map fun c => if c.toNat < 0x80 then .byte c.toNat else .char c) = s := by
  induction s with
  | nil => rfl
  | cons c s ih =>
    rw [List.map_cons]
    -- an ASCII character is a byte of its own for the decoder
    by_cases hc : c.toNat < 0x80
    · have hfirst : Utf8.start.next c.toNat = ([c], .start) := by
        show Utf8.first c.toNat = _
        rw [Utf8.first, if_pos hc, Char.ofNat_toNat]
      rw [if_pos hc, decode, hfirst]
      exact congrArg (c :: ·) ih
    · rw [if_neg hc, decode]
      exact congrArg (c :: ·) ih

theorem unquote_of_not_hasEscape {s : List Char} (h : hasEscape s = false) : unquote s = s := by
  rw [unquote, pieces_of_not_hasEscape h, decode_chars]

/-- A text without an escape stays as it is, and any other gets shorter. -/
theorem length_unquote_eq_iff {s : List Char} :
    (unquote s).length = s.length ↔ hasEscape s = false := by
  constructor
  · intro h
    by_contra hescape
    have hdecode := length_decode_le .start (pieces s)
    have hpieces := length_pieces_lt ((Bool.not_eq_false _).mp hescape)
    rw [unquote] at h
    dsimp only [Utf8.pending] at hdecode
    omega
  · intro h
    rw [unquote_of_not_hasEscape h]

end MonascaNotification.Urlparse
