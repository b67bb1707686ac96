import ChatApp.Lib.Bytes

set_option autoImplicit false

/-! # Well-formed UTF-8

The automaton that accepts exactly the byte strings in which every character is encoded in
the shortest form, below `U+110000`, and outside the surrogates. Between two characters it
is in the state `start`; inside a character it counts the continuation bytes still to come
and keeps the range the next one has to lie in.

The encoding of any characters is accepted (`valid_encode`).
-/

namespace ChatApp.Lib.Utf8

/-- A state of the automaton. -/
inductive Scan
  | start
  | expect (more : Nat) (lo hi : UInt8)
  deriving Repr, DecidableEq

/-- One byte. `none`: no well-formed string continues like this. -/
def Scan.next : Scan → UInt8 → Option Scan
  | .start, b =>
      if b < 0x80 then some .start
      else if b < 0xC2 then none
      else if b < 0xE0 then some (.expect 0 0x80 0xBF)
      else if b = 0xE0 then some (.expect 1 0xA0 0xBF)
      else if b = 0xED then some (.expect 1 0x80 0x9F)
      else if b < 0xF0 then some (.expect 1 0x80 0xBF)
      else if b = 0xF0 then some (.expect 2 0x90 0xBF)
      else if b < 0xF4 then some (.expect 2 0x80 0xBF)
      else if b = 0xF4 then some (.expect 2 0x80 0x8F)
      else none
  | .expect more lo hi, b =>
      if lo ≤ b ∧ b ≤ hi then
        match more with
        | 0 => some .start
        | n + 1 => some (.expect n 0x80 0xBF)
      else none

/-- The automaton on a whole string. -/
def scan (s : Scan) (bs : Bytes) : Option Scan := bs.foldlM Scan.next s

/-- Well-formed UTF-8: the string ends between two characters. -/
def valid (bs : Bytes) : Bool := scan .start bs == some .start

@[simp] theorem valid_nil : valid [] = true := rfl

/-! ## Encoding -/

/-- The UTF-8 encoding of some characters. -/
def encode (cs : List Char) : Bytes := cs.flatMap String.utf8EncodeChar

@[simp] theorem encode_nil : encode [] = [] := rfl

theorem encode_concat (cs : List Char) (c : Char) :
    encode (cs ++ [c]) = encode cs ++ String.utf8EncodeChar c := by
  rw [encode, List.flatMap_append, List.flatMap_singleton]
  rfl

/-- The number of a character is no surrogate, and below `0x110000`. -/
theorem toNat_valid (c : Char) :
    c.val.toNat < 0xD800 ∨ (0xDFFF < c.val.toNat ∧ c.val.toNat < 0x110000) := c.valid

/-- A byte of a character's encoding is the character itself or is no ASCII. -/
theorem toNat_of_mem_utf8EncodeChar {c : Char} {b : UInt8} (h : b ∈ String.utf8EncodeChar c) :
    b.toNat = c.val.toNat ∨ 0x80 ≤ b.toNat := by
  unfold String.utf8EncodeChar at h
  simp only at h
  split_ifs at h <;>
    simp only [List.mem_cons, List.not_mem_nil, or_false] at h <;>
    rcases h with rfl | rfl | rfl | rfl <;>
    rw [UInt8.toNat_ofNat'] <;>
    omega

/-- The automaton's first step, on numbers. -/
theorem next_start (b : UInt8) :
    Scan.next .start b =
      if b.toNat < 0x80 then some .start
      else if b.toNat < 0xC2 then none
      else if b.toNat < 0xE0 then some (.expect 0 0x80 0xBF)
      else if b.toNat = 0xE0 then some (.expect 1 0xA0 0xBF)
      else if b.toNat = 0xED then some (.expect 1 0x80 0x9F)
      else if b.toNat < 0xF0 then some (.expect 1 0x80 0xBF)
      else if b.toNat = 0xF0 then some (.expect 2 0x90 0xBF)
      else if b.toNat < 0xF4 then some (.expect 2 0x80 0xBF)
      else if b.toNat = 0xF4 then some (.expect 2 0x80 0x8F)
      else none := by
  simp only [Scan.next, UInt8.lt_iff_toNat_lt, ← UInt8.toNat_inj]
  rfl

/-- A continuation byte in its range is taken. -/
theorem next_expect {more : Nat} {lo hi b : UInt8} (hlo : lo.toNat ≤ b.toNat)
    (hhi : b.toNat ≤ hi.toNat) :
    Scan.next (.expect more lo hi) b
      = match more with
        | 0 => some .start
        | n + 1 => some (.expect n 0x80 0xBF) :=
  if_pos ⟨UInt8.le_iff_toNat_le.mpr hlo, UInt8.le_iff_toNat_le.mpr hhi⟩

theorem scan_cons (s : Scan) (b : UInt8) (bs : Bytes) :
    scan s (b :: bs) = (Scan.next s b).bind fun s => scan s bs := List.foldlM_cons ..

/-- The six low bits of `n`, as a continuation byte. -/
def continuation (n : Nat) : UInt8 := UInt8.ofNat (n % 0x40 + 0x80)

theorem toNat_continuation (n : Nat) : (continuation n).toNat = n % 0x40 + 0x80 :=
  UInt8.toNat_ofNat_of_lt' (show n % 0x40 + 0x80 < 256 by omega)

/-- Any continuation byte is taken where no range is narrower. -/
theorem next_continuation (more n : Nat) :
    Scan.next (.expect more 0x80 0xBF) (continuation n)
      = match more with
        | 0 => some .start
        | k + 1 => some (.expect k 0x80 0xBF) := by
  have hlo : (0x80 : UInt8).toNat = 0x80 := rfl
  have hhi : (0xBF : UInt8).toNat = 0xBF := rfl
  have hn := toNat_continuation n
  exact next_expect (by omega) (by omega)

/-- Behind a lead byte of three: a byte in the range it asks for, and another. -/
theorem scan_expect_one {lo hi b : UInt8} (hlo : lo.toNat ≤ b.toNat) (hhi : b.toNat ≤ hi.toNat)
    (n : Nat) : scan (.expect 1 lo hi) [b, continuation n] = some .start := by
  rw [scan_cons, next_expect hlo hhi, Option.bind_some, scan_cons, next_continuation]
  rfl

/-- Behind a lead byte of four: a byte in the range it asks for, and two others. -/
theorem scan_expect_two {lo hi b : UInt8} (hlo : lo.toNat ≤ b.toNat) (hhi : b.toNat ≤ hi.toNat)
    (n k : Nat) :
    scan (.expect 2 lo hi) [b, continuation n, continuation k] = some .start := by
  rw [scan_cons, next_expect hlo hhi, Option.bind_some, scan_cons, next_continuation,
    Option.bind_some, scan_cons, next_continuation]
  rfl

/-- Three bytes that encode a number which is no surrogate. -/
theorem scan_three {v : Nat} (hvalid : v < 0xD800 ∨ 0xDFFF < v) (hlt : 0x7FF < v)
    (hle : v ≤ 0xFFFF) :
    scan .start [UInt8.ofNat (v / 4096 % 0x10 + 0xE0), continuation (v / 64), continuation v]
      = some .start := by
  have hlead := UInt8.toNat_ofNat_of_lt' (show v / 4096 % 0x10 + 0xE0 < 256 by omega)
  have hnext := toNat_continuation (v / 64)
  rw [scan_cons, next_start, hlead, if_neg (by omega), if_neg (by omega), if_neg (by omega)]
  by_cases hfirst : v / 4096 % 0x10 + 0xE0 = 0xE0
  · -- Shorter encodings are ruled out by the range of the second byte.
    have hlo : (0xA0 : UInt8).toNat = 0xA0 := rfl
    have hhi : (0xBF : UInt8).toNat = 0xBF := rfl
    rw [if_pos hfirst, Option.bind_some]
    exact scan_expect_one (by omega) (by omega) v
  · by_cases hsurrogate : v / 4096 % 0x10 + 0xE0 = 0xED
    · have hlo : (0x80 : UInt8).toNat = 0x80 := rfl
      have hhi : (0x9F : UInt8).toNat = 0x9F := rfl
      rw [if_neg hfirst, if_pos hsurrogate, Option.bind_some]
      exact scan_expect_one (by omega) (by omega) v
    · have hlo : (0x80 : UInt8).toNat = 0x80 := rfl
      have hhi : (0xBF : UInt8).toNat = 0xBF := rfl
      rw [if_neg hfirst, if_neg hsurrogate, if_pos (by omega), Option.bind_some]
      exact scan_expect_one (by omega) (by omega) v

/-- Four bytes that encode a number below `0x110000`. -/
theorem scan_four {v : Nat} (hlt : 0xFFFF < v) (hle : v < 0x110000) :
    scan .start [UInt8.ofNat (v / 262144 % 0x08 + 0xF0), continuation (v / 4096),
        continuation (v / 64), continuation v] = some .start := by
  have hlead := UInt8.toNat_ofNat_of_lt' (show v / 262144 % 0x08 + 0xF0 < 256 by omega)
  have hnext := toNat_continuation (v / 4096)
  rw [scan_cons, next_start, hlead, if_neg (by omega), if_neg (by omega), if_neg (by omega),
    if_neg (by omega), if_neg (by omega), if_neg (by omega)]
  by_cases hfirst : v / 262144 % 0x08 + 0xF0 = 0xF0
  · have hlo : (0x90 : UInt8).toNat = 0x90 := rfl
    have hhi : (0xBF : UInt8).toNat = 0xBF := rfl
    rw [if_pos hfirst, Option.bind_some]
    exact scan_expect_two (by omega) (by omega) _ v
  · by_cases hmiddle : v / 262144 % 0x08 + 0xF0 < 0xF4
    · have hlo : (0x80 : UInt8).toNat = 0x80 := rfl
      have hhi : (0xBF : UInt8).toNat = 0xBF := rfl
      rw [if_neg hfirst, if_pos hmiddle, Option.bind_some]
      exact scan_expect_two (by omega) (by omega) _ v
    · have hlo : (0x80 : UInt8).toNat = 0x80 := rfl
      have hhi : (0x8F : UInt8).toNat = 0x8F := rfl
      rw [if_neg hfirst, if_neg hmiddle, if_pos (by omega), Option.bind_some]
      exact scan_expect_two (by omega) (by omega) _ v

/-- The encoding of a character takes the automaton from one boundary to the next. -/
theorem scan_utf8EncodeChar (c : Char) : scan .start (String.utf8EncodeChar c) = some .start := by
  have hvalid := toNat_valid c
  unfold String.utf8EncodeChar
  generalize c.val.toNat = v at hvalid
  simp only
  split_ifs with hone htwo hthree
  · have hb := UInt8.toNat_ofNat_of_lt' (show v < 256 by omega)
    rw [scan_cons, next_start, hb, if_pos (by omega)]
    rfl
  · have hlead := UInt8.toNat_ofNat_of_lt' (show v / 64 % 0x20 + 0xC0 < 256 by omega)
    rw [scan_cons, next_start, hlead, if_neg (by omega), if_neg (by omega), if_pos (by omega),
      Option.bind_some, scan_cons]
    exact congrArg (Option.bind · _) (next_continuation 0 v)
  · exact scan_three (by omega) (by omega) hthree
  · exact scan_four (by omega) (by omega)

theorem scan_append (s : Scan) (bs bs' : Bytes) :
    scan s (bs ++ bs') = (scan s bs).bind fun s => scan s bs' := List.foldlM_append ..

theorem valid_encode (cs : List Char) : valid (encode cs) = true := by
  have hscan : scan .start (encode cs) = some .start := by
    induction cs with
    | nil => rfl
    | cons c cs ih =>
        rw [encode, List.flatMap_cons, scan_append, scan_utf8EncodeChar, Option.bind_some]
        exact ih
  rw [valid, hscan]
  rfl

end ChatApp.Lib.Utf8
