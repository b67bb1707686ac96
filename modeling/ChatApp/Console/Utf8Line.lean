import ChatApp.Console.Lines
import ChatApp.Lib.Utf8

set_option autoImplicit false

/-! # Editing a line of characters

A DEL takes one byte off what has been typed, and a character is up to four. So a DEL behind a
character of several bytes leaves all of them but one, and these stay in the line until DELs at
an apparently empty line take them. The line is made of the characters that remain exactly if
nothing is left behind in this way (`readsCharacters_iff`).
-/

namespace ChatApp

open Lib

namespace Console

def del : Char := Char.ofNat 0x7F

def newline : Char := Char.ofNat 0x0A

/-! ## What should be read -/

/-- The characters that remain: a DEL removes the last one, if there is one. -/
def remaining (keys : List Char) : List Char :=
  keys.foldl (fun kept key => if key = del then kept.dropLast else kept ++ [key]) []

/-- What `getchar` returns for the keys and a newline. -/
def typed (keys : List Char) : List Int := charsOf (Utf8.encode keys) ++ [kNewLine]

/-- The read returns the characters that remain, as valid UTF-8. -/
def ReadsCharacters (prompt : Bytes) (keys : List Char) : Prop :=
  ∃ line c, read {} prompt (typed keys) = some (line, c, []) ∧
    line = Utf8.encode (remaining keys) ∧ Utf8.valid line = true

/-- A key, on the characters that remain and the number of bytes that are left behind beside
them. A DEL takes one byte, of the last character if there is one and otherwise of those left
behind. -/
def press (line : List Char × Nat) (key : Char) : List Char × Nat :=
  if key = del then
    match line.1.getLast? with
    | some c => (line.1.dropLast, line.2 + (c.utf8Size - 1))
    | none => (line.1, line.2 - 1)
  else (line.1 ++ [key], line.2)

/-- The bytes of removed characters that are left behind. -/
def leftBehind (keys : List Char) : Nat := (keys.foldl press ([], 0)).2

variable {keys : List Char} {key : Char}

theorem remaining_concat_del (keys : List Char) :
    remaining (keys ++ [del]) = (remaining keys).dropLast := List.foldl_concat ..

theorem remaining_concat (keys : List Char) (h : key ≠ del) :
    remaining (keys ++ [key]) = remaining keys ++ [key] := by
  rw [remaining, List.foldl_concat, if_neg h]
  rfl

/-- Beside the bytes left behind stand the characters that remain. -/
theorem foldl_press (keys : List Char) :
    keys.foldl press ([], 0) = (remaining keys, leftBehind keys) := by
  induction keys using List.reverseRecOn with
  | nil => rfl
  | append_singleton keys key ih =>
      refine Prod.ext ?_ rfl
      rw [List.foldl_concat, ih, press]
      by_cases hdel : key = del
      · subst hdel
        rw [if_pos rfl, remaining_concat_del]
        cases hlast : (remaining keys).getLast? with
        | none => rw [List.getLast?_eq_none_iff.mp hlast, List.dropLast_nil]
        | some c => rfl
      · rw [if_neg hdel, remaining_concat keys hdel]

theorem leftBehind_concat (keys : List Char) (h : key ≠ del) :
    leftBehind (keys ++ [key]) = leftBehind keys := by
  rw [leftBehind, List.foldl_concat, foldl_press, press, if_neg h]

theorem leftBehind_concat_del_of_nil (h : remaining keys = []) :
    leftBehind (keys ++ [del]) = leftBehind keys - 1 := by
  rw [leftBehind, List.foldl_concat, foldl_press, press, if_pos rfl, h]
  rfl

theorem leftBehind_concat_del_of_concat {kept : List Char} {c : Char}
    (h : remaining keys = kept ++ [c]) :
    leftBehind (keys ++ [del]) = leftBehind keys + (c.utf8Size - 1) := by
  rw [leftBehind, List.foldl_concat, foldl_press, press, if_pos rfl, h, List.getLast?_concat]

/-! ## What is read -/

/-- Bytes without a DEL come behind the line. -/
theorem edit_append_of_not_mem (keys : Bytes) {text : Bytes} (h : 0x7F ∉ text) :
    edit (keys ++ text) = edit keys ++ text := by
  induction text using List.reverseRecOn with
  | nil => rw [List.append_nil, List.append_nil]
  | append_singleton text b ih =>
      rw [List.mem_append, not_or, List.mem_singleton] at h
      calc edit (keys ++ (text ++ [b])) = edit (keys ++ text ++ [b]) := by
            rw [List.append_assoc]
        _ = edit (keys ++ text) ++ [b] := edit_char _ (Ne.symm h.2)
        _ = edit keys ++ (text ++ [b]) := by
            rw [ih h.1, List.append_assoc]

/-- A byte of ASCII is in the encoding of its own character only. -/
theorem not_mem_utf8EncodeChar {c d : Char} (hd : d.val.toNat < 0x80) (hc : c ≠ d) :
    UInt8.ofNat d.val.toNat ∉ String.utf8EncodeChar c := by
  have hne : c.val.toNat ≠ d.val.toNat := fun h => hc (Char.ext (UInt32.toNat_inj.mp h))
  have hb := UInt8.toNat_ofNat_of_lt' (show d.val.toNat < 256 by omega)
  intro h
  have hbyte := Utf8.toNat_of_mem_utf8EncodeChar h
  omega

/-- **What the line is made of**: as many bytes as the characters that remain and the bytes left
behind; and if there are none of these, the characters. -/
theorem edit_encode (keys : List Char) :
    (edit (Utf8.encode keys)).length
        = (Utf8.encode (remaining keys)).length + leftBehind keys ∧
      (leftBehind keys = 0 → edit (Utf8.encode keys) = Utf8.encode (remaining keys)) := by
  induction keys using List.reverseRecOn with
  | nil => exact ⟨rfl, fun _ => rfl⟩
  | append_singleton keys key ih =>
      obtain ⟨hlen, hline⟩ := ih
      by_cases hdel : key = del
      · subst hdel
        have henc : Utf8.encode (keys ++ [del]) = Utf8.encode keys ++ [0x7F] :=
          Utf8.encode_concat keys del
        rw [henc, edit_del, remaining_concat_del, List.length_dropLast]
        rcases List.eq_nil_or_concat' (remaining keys) with hnil | ⟨kept, c, hkept⟩
        · -- No character remains, so the line is made of bytes left behind.
          rw [hnil, Utf8.encode_nil, List.length_nil, Nat.zero_add] at hlen
          rw [leftBehind_concat_del_of_nil hnil, hnil, hlen]
          refine ⟨by simp, fun hzero => List.eq_nil_of_length_eq_zero ?_⟩
          rw [List.length_dropLast, hlen]
          exact hzero
        · have hpos : 0 < c.utf8Size := c.utf8Size_pos
          rw [hkept, Utf8.encode_concat] at hlen hline
          rw [List.length_append, String.length_utf8EncodeChar] at hlen
          rw [leftBehind_concat_del_of_concat hkept, hkept, List.dropLast_concat]
          refine ⟨by omega, fun hzero => ?_⟩
          -- The character was a single byte, and it is the byte that goes.
          have hsize : c.utf8Size = 1 := by omega
          rw [hline (by omega), String.utf8EncodeChar_eq_singleton hsize, List.dropLast_concat]
      · have hnot : (0x7F : UInt8) ∉ String.utf8EncodeChar key :=
          not_mem_utf8EncodeChar (d := del) (by decide) hdel
        rw [Utf8.encode_concat, edit_append_of_not_mem _ hnot, remaining_concat keys hdel,
          Utf8.encode_concat, leftBehind_concat keys hdel, List.length_append, List.length_append,
          hlen]
        exact ⟨by omega, fun hzero => by rw [hline hzero]⟩

/-- The read returns the line, as the keys have edited it. -/
theorem read_typed (prompt : Bytes) (h : newline ∉ keys) :
    read {} prompt (typed keys) = some (edit (Utf8.encode keys), {}, []) := by
  refine read_line prompt ?_
  intro hmem
  obtain ⟨c, hc, hbyte⟩ := List.mem_flatMap.mp hmem
  have hne : c ≠ newline := fun heq => h (heq ▸ hc)
  exact not_mem_utf8EncodeChar (d := newline) (by decide) hne hbyte

/-- **The read returns the characters that remain exactly if no bytes are left behind.** -/
theorem readsCharacters_iff (prompt : Bytes) (keys : List Char) (h : newline ∉ keys) :
    ReadsCharacters prompt keys ↔ leftBehind keys = 0 := by
  obtain ⟨hlen, hline⟩ := edit_encode keys
  constructor
  · rintro ⟨line, c, hread, hchars, -⟩
    rw [read_typed prompt h, Option.some.injEq, Prod.mk.injEq] at hread
    rw [hread.1, hchars] at hlen
    omega
  · intro hzero
    refine ⟨_, {}, read_typed prompt h, hline hzero, ?_⟩
    rw [hline hzero]
    exact Utf8.valid_encode _

/-- A two-byte character, a slip, a DEL, and a character. -/
theorem readsCharacters_slip :
    ReadsCharacters [0x3E] [Char.ofNat 0xE9, Char.ofNat 0x61, del, Char.ofNat 0x62] :=
  (readsCharacters_iff _ _ (by decide)).mpr (by decide)

/-- A two-byte character and a DEL: its first byte is returned, which is no valid UTF-8. -/
theorem not_readsCharacters_del :
    ¬ReadsCharacters [0x3E] [Char.ofNat 0xE9, del] ∧
      remaining [Char.ofNat 0xE9, del] = [] ∧
      read {} [0x3E] (typed [Char.ofNat 0xE9, del]) = some ([0xC3], {}, []) ∧
      Utf8.valid [0xC3] = false := by
  have hread : read {} [0x3E] (typed [Char.ofNat 0xE9, del]) = some ([0xC3], {}, []) := by
    decide +kernel
  refine ⟨?_, rfl, hread, by decide⟩
  rintro ⟨line, c, hread', hchars, -⟩
  rw [hread] at hread'
  obtain rfl : [0xC3] = line := congrArg Prod.fst (Option.some.inj hread')
  exact absurd hchars (by decide)

end Console

end ChatApp
