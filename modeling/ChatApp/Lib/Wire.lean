import ChatApp.Lib.Bytes

set_option autoImplicit false

/-! # The tag-length-value wire format

A message on the wire is a sequence of fields, each a tag (field number and wire type, as a
base-128 varint) and a payload whose extent the wire type determines. So a byte string splits
into fields before anything is known about the message (`parse`), and a message type only
says what each field does to a value (`mergeFrom`):

* the split stops at the end of the bytes, at a zero tag or an end-group tag, or where the
  bytes are no field at all (`Ending`); the fields before that point are kept in every case;
* a message is read by merging its fields in order into a value, so a field that occurs
  again overwrites or extends what an earlier one left, and a field that is not declared, or
  has another wire type than declared, leaves the value as it is;
* the read succeeds if every field was well-formed and the split stopped at the end.

`parse_encode_append` is the round trip on fields; `mergeFrom_encode` and
`mergeFrom_encode_zeros` lift it to messages, the second with padding behind the message.
-/

namespace ChatApp.Lib.Wire

/-! ## Varints -/

/-- The varint of `n` in at most `k + 1` bytes, seven bits a byte, least significant first. -/
def putVarint : Nat → Nat → Bytes
  | 0, n => [UInt8.ofNat n]
  | k + 1, n =>
      if n < 128 then [UInt8.ofNat n] else UInt8.ofNat (n % 128 + 128) :: putVarint k (n / 128)

/-- The varint of a number below `2 ^ 64`. -/
def encodeVarint (n : Nat) : Bytes := putVarint 9 n

/-- Read a varint of at most `k` bytes. -/
def readVarint : Nat → Bytes → Option (Nat × Bytes)
  | 0, _ => none
  | _ + 1, [] => none
  | k + 1, b :: bs =>
      if b.toNat < 128 then some (b.toNat, bs)
      else (readVarint k bs).map (fun p => (b.toNat - 128 + 128 * p.1, p.2))

theorem readVarint_putVarint (rest : Bytes) : ∀ (j k n : Nat), j ≤ k → n < 128 ^ (j + 1) →
    readVarint (j + 1) (putVarint k n ++ rest) = some (n, rest) := by
  intro j
  induction j with
  | zero =>
      intro k n _ hn
      have hn' : n < 128 := by simpa using hn
      cases k <;> simp [putVarint, readVarint, hn', show n % 256 = n by omega]
  | succ j ih =>
      intro k n hk hn
      obtain ⟨k, rfl⟩ : ∃ k', k = k' + 1 := ⟨k - 1, by omega⟩
      by_cases hlt : n < 128
      · simp [putVarint, readVarint, hlt, show n % 256 = n by omega]
      · have hdiv : n / 128 < 128 ^ (j + 1) := by
          rw [Nat.div_lt_iff_lt_mul (by norm_num)]
          calc n < 128 ^ (j + 1 + 1) := hn
            _ = 128 ^ (j + 1) * 128 := pow_succ 128 (j + 1)
        have hbyte : (UInt8.ofNat (n % 128 + 128)).toNat = n % 128 + 128 := by
          rw [UInt8.toNat_ofNat']; omega
        simp only [putVarint, if_neg hlt, List.cons_append, readVarint, hbyte,
          ih k (n / 128) (by omega) hdiv, Option.map_some]
        rw [if_neg (by omega)]
        congr 2
        omega

theorem readVarint_encodeVarint {j n : Nat} (rest : Bytes) (hj : j ≤ 9) (hn : n < 128 ^ (j + 1)) :
    readVarint (j + 1) (encodeVarint n ++ rest) = some (n, rest) :=
  readVarint_putVarint rest j 9 n hj hn

/-- What a varint takes up is a nonempty prefix of the bytes. -/
theorem readVarint_length {k n : Nat} {bs rest : Bytes}
    (h : readVarint k bs = some (n, rest)) : rest.length < bs.length := by
  induction k generalizing bs n with
  | zero => simp [readVarint] at h
  | succ k ih =>
      cases bs with
      | nil => simp [readVarint] at h
      | cons b t =>
          simp only [readVarint] at h
          split_ifs at h with hb
          · cases h; simp
          · obtain ⟨⟨m, r⟩, hr, heq⟩ := Option.map_eq_some_iff.mp h
            cases heq
            exact lt_trans (ih hr) (Nat.lt_succ_self t.length)

/-- A varint that is there is still there when bytes follow. -/
theorem readVarint_append {k n : Nat} {bs rest : Bytes} (tail : Bytes)
    (h : readVarint k bs = some (n, rest)) :
    readVarint k (bs ++ tail) = some (n, rest ++ tail) := by
  induction k generalizing bs n with
  | zero => simp [readVarint] at h
  | succ k ih =>
      cases bs with
      | nil => simp [readVarint] at h
      | cons b t =>
          simp only [readVarint, List.cons_append] at h ⊢
          split_ifs at h ⊢ with hb
          · cases h; rfl
          · obtain ⟨⟨m, r⟩, hr, heq⟩ := Option.map_eq_some_iff.mp h
            cases heq
            rw [ih hr, Option.map_some]

/-- A varint carries seven bits a byte. -/
theorem readVarint_lt {k n : Nat} {bs rest : Bytes} (h : readVarint k bs = some (n, rest)) :
    n < 128 ^ k := by
  induction k generalizing n bs rest with
  | zero => cases h
  | succ k ih =>
      have hpow : 128 ^ (k + 1) = 128 * 128 ^ k := by ring
      have hpos : 0 < 128 ^ k := Nat.pow_pos (by decide)
      cases bs with
      | nil => cases h
      | cons b bs =>
          have hb := b.toNat_lt
          unfold readVarint at h
          split_ifs at h with hlast
          · cases h
            omega
          · rcases Option.map_eq_some_iff.mp h with ⟨⟨m, r⟩, hm, heq⟩
            cases heq
            have hrest := ih hm
            show b.toNat - 128 + 128 * m < 128 ^ (k + 1)
            omega

/-! ## Fields -/

/-- What a field carries. A group is only ever passed over, so its content is dropped. -/
inductive Payload
  | varint (n : Nat)
  | fixed64 (bs : Bytes)
  | lenDelim (bs : Bytes)
  | group
  | fixed32 (bs : Bytes)
  deriving Repr, DecidableEq

/-- A field: its number and what it carries. -/
structure Field where
  num : Nat
  payload : Payload
  deriving Repr, DecidableEq

/-- What stands at the start of some bytes: a field and the bytes behind it, a tag that ends
the message (zero or end-group), or neither. -/
inductive Token
  | field (f : Field) (rest : Bytes)
  | stop
  | malformed
  deriving Repr, DecidableEq

/-- Read a run of exactly `n` bytes. -/
def readRun (n : Nat) (bs : Bytes) : Option (Bytes × Bytes) :=
  if n ≤ bs.length then some (bs.take n, bs.drop n) else none

/-- Read a payload of a wire type that does not nest. A length that runs over the bytes is
refused as a whole; of such a field a library may keep what it read before it noticed, so what
a message holds behind it is not settled here (`framed`). -/
def readScalar (wireType : Nat) (bs : Bytes) : Option (Payload × Bytes) :=
  match wireType with
  | 0 => (readVarint 10 bs).map (fun p => (.varint (p.1 % 2 ^ 64), p.2))
  | 1 => (readRun 8 bs).map (fun p => (.fixed64 p.1, p.2))
  | 2 => (readVarint 5 bs).bind (fun p =>
      (readRun p.1 p.2).map (fun q => (.lenDelim q.1, q.2)))
  | 5 => (readRun 4 bs).map (fun p => (.fixed32 p.1, p.2))
  | _ => none

/-- Pass over a group up to and including the end-group tag with its number. The first
argument bounds the number of tags read; a tag takes a byte, so the number of bytes will do. -/
def skipGroup : Nat → Nat → Bytes → Option Bytes
  | 0, _, _ => none
  | fuel + 1, num, bs =>
      (readVarint 5 bs).bind (fun p =>
        let tag := p.1 % 2 ^ 32
        if tag % 8 = 4 then (if tag / 8 = num then some p.2 else none)
        else if tag / 8 = 0 then none
        else if tag % 8 = 3 then (skipGroup fuel (tag / 8) p.2).bind (skipGroup fuel num)
        else (readScalar (tag % 8) p.2).bind (fun q => skipGroup fuel num q.2))

/-- Read the payload of field `num`. -/
def readPayload (num wireType : Nat) (bs : Bytes) : Option (Payload × Bytes) :=
  if wireType = 3 then (skipGroup bs.length num bs).map (fun rest => (.group, rest))
  else readScalar wireType bs

/-- Read one field. -/
def readField (bs : Bytes) : Token :=
  match readVarint 5 bs with
  | none => .malformed
  | some (t, rest) =>
      let tag := t % 2 ^ 32
      if tag = 0 ∨ tag % 8 = 4 then .stop
      else if tag / 8 = 0 then .malformed
      else
        match readPayload (tag / 8) (tag % 8) rest with
        | none => .malformed
        | some (p, rest') => .field ⟨tag / 8, p⟩ rest'

/-! ## Splitting a byte string into fields -/

/-- Where the split into fields stopped: at the end of the bytes, at a tag that ends the
message, or at bytes that are no field. -/
inductive Ending
  | limit
  | stopped
  | malformed
  deriving Repr, DecidableEq

/-- The split, reading at most `fuel` fields. -/
def parseAux : Nat → Bytes → List Field × Ending
  | _, [] => ([], .limit)
  | 0, _ :: _ => ([], .malformed)
  | fuel + 1, b :: bs =>
      match readField (b :: bs) with
      | .stop => ([], .stopped)
      | .malformed => ([], .malformed)
      | .field f rest => (f :: (parseAux fuel rest).1, (parseAux fuel rest).2)

/-- **The fields of a byte string**, and where the split stopped. -/
def parse (bs : Bytes) : List Field × Ending := parseAux bs.length bs

/-- No field runs over the bytes, and the content of every length-delimited field passes the
check for its number. -/
def framed (inside : Nat → Bytes → Bool) (bs : Bytes) : Bool :=
  (parse bs).2 != .malformed &&
    (parse bs).1.all fun f =>
      match f.payload with
      | .lenDelim content => inside f.num content
      | _ => true

theorem readRun_length {n : Nat} {bs run rest : Bytes} (h : readRun n bs = some (run, rest)) :
    rest.length ≤ bs.length := by
  unfold readRun at h
  split_ifs at h
  cases h
  simp

theorem readRun_append {n : Nat} {bs run rest : Bytes} (tail : Bytes)
    (h : readRun n bs = some (run, rest)) : readRun n (bs ++ tail) = some (run, rest ++ tail) := by
  unfold readRun at h ⊢
  split_ifs at h with hn
  cases h
  rw [if_pos (by rw [List.length_append]; omega), List.take_append_of_le_length hn,
    List.drop_append_of_le_length hn]

theorem readScalar_length {w : Nat} {bs rest : Bytes} {p : Payload}
    (h : readScalar w bs = some (p, rest)) : rest.length ≤ bs.length := by
  unfold readScalar at h
  split at h
  · obtain ⟨q, hq, heq⟩ := Option.map_eq_some_iff.mp h
    cases heq
    exact Nat.le_of_lt (readVarint_length hq)
  · obtain ⟨q, hq, heq⟩ := Option.map_eq_some_iff.mp h
    cases heq
    exact readRun_length hq
  · obtain ⟨q, hq, h'⟩ := Option.bind_eq_some_iff.mp h
    obtain ⟨r, hr, heq⟩ := Option.map_eq_some_iff.mp h'
    cases heq
    exact le_trans (readRun_length hr) (Nat.le_of_lt (readVarint_length hq))
  · obtain ⟨q, hq, heq⟩ := Option.map_eq_some_iff.mp h
    cases heq
    exact readRun_length hq
  · cases h

theorem readScalar_append {w : Nat} {bs rest : Bytes} {p : Payload} (tail : Bytes)
    (h : readScalar w bs = some (p, rest)) :
    readScalar w (bs ++ tail) = some (p, rest ++ tail) := by
  unfold readScalar at h ⊢
  split at h
  · obtain ⟨q, hq, heq⟩ := Option.map_eq_some_iff.mp h
    cases heq
    simp only [readVarint_append tail hq, Option.map_some]
  · obtain ⟨q, hq, heq⟩ := Option.map_eq_some_iff.mp h
    cases heq
    simp only [readRun_append tail hq, Option.map_some]
  · obtain ⟨q, hq, h'⟩ := Option.bind_eq_some_iff.mp h
    obtain ⟨r, hr, heq⟩ := Option.map_eq_some_iff.mp h'
    cases heq
    simp only [readVarint_append tail hq, Option.bind_some, readRun_append tail hr,
      Option.map_some]
  · obtain ⟨q, hq, heq⟩ := Option.map_eq_some_iff.mp h
    cases heq
    simp only [readRun_append tail hq, Option.map_some]
  · cases h

theorem skipGroup_length {fuel num : Nat} {bs rest : Bytes}
    (h : skipGroup fuel num bs = some rest) : rest.length ≤ bs.length := by
  induction fuel generalizing num bs rest with
  | zero => simp [skipGroup] at h
  | succ fuel ih =>
      obtain ⟨q, hq, h⟩ := Option.bind_eq_some_iff.mp h
      have hlt := readVarint_length hq
      dsimp only at h
      split_ifs at h
      · cases h; omega
      · obtain ⟨r, hr, h⟩ := Option.bind_eq_some_iff.mp h
        have := ih hr
        have := ih h
        omega
      · obtain ⟨r, hr, h⟩ := Option.bind_eq_some_iff.mp h
        have := readScalar_length hr
        have := ih h
        omega

/-- Passing over a group does not depend on what follows it, nor on spare fuel. -/
theorem skipGroup_append {fuel num : Nat} {bs rest : Bytes} (more : Nat) (tail : Bytes)
    (h : skipGroup fuel num bs = some rest) :
    skipGroup (fuel + more) num (bs ++ tail) = some (rest ++ tail) := by
  induction fuel generalizing num bs rest with
  | zero => simp [skipGroup] at h
  | succ fuel ih =>
      obtain ⟨q, hq, h⟩ := Option.bind_eq_some_iff.mp h
      dsimp only at h
      rw [Nat.succ_add, skipGroup, readVarint_append tail hq]
      simp only [Option.bind_some]
      split_ifs at h ⊢
      · cases h; rfl
      · obtain ⟨r, hr, h⟩ := Option.bind_eq_some_iff.mp h
        rw [ih hr, Option.bind_some, ih h]
      · obtain ⟨r, hr, h⟩ := Option.bind_eq_some_iff.mp h
        rw [readScalar_append tail hr, Option.bind_some, ih h]

theorem readPayload_length {num w : Nat} {bs rest : Bytes} {p : Payload}
    (h : readPayload num w bs = some (p, rest)) : rest.length ≤ bs.length := by
  unfold readPayload at h
  split_ifs at h
  · obtain ⟨r, hr, heq⟩ := Option.map_eq_some_iff.mp h
    cases heq
    exact skipGroup_length hr
  · exact readScalar_length h

theorem readPayload_append {num w : Nat} {bs rest : Bytes} {p : Payload} (tail : Bytes)
    (h : readPayload num w bs = some (p, rest)) :
    readPayload num w (bs ++ tail) = some (p, rest ++ tail) := by
  unfold readPayload at h ⊢
  split_ifs at h ⊢
  · obtain ⟨r, hr, heq⟩ := Option.map_eq_some_iff.mp h
    cases heq
    rw [List.length_append, skipGroup_append tail.length tail hr, Option.map_some]
  · exact readScalar_append tail h

/-- What reading a field can find, said once. -/
theorem readField_cases (bs : Bytes) :
    (readField bs = .malformed) ∨
    (readField bs = .stop ∧ ∃ t rest, readVarint 5 bs = some (t, rest)
      ∧ (t % 2 ^ 32 = 0 ∨ t % 2 ^ 32 % 8 = 4)) ∨
    (∃ t rest p rest', readField bs = .field ⟨t % 2 ^ 32 / 8, p⟩ rest'
      ∧ readVarint 5 bs = some (t, rest) ∧ ¬(t % 2 ^ 32 = 0 ∨ t % 2 ^ 32 % 8 = 4)
      ∧ t % 2 ^ 32 / 8 ≠ 0
      ∧ readPayload (t % 2 ^ 32 / 8) (t % 2 ^ 32 % 8) rest = some (p, rest')) := by
  unfold readField
  cases hv : readVarint 5 bs with
  | none => exact Or.inl rfl
  | some q =>
      obtain ⟨t, rest⟩ := q
      dsimp only
      by_cases hstop : t % 2 ^ 32 = 0 ∨ t % 2 ^ 32 % 8 = 4
      · exact Or.inr (Or.inl ⟨if_pos hstop, t, rest, rfl, hstop⟩)
      · by_cases hnum : t % 2 ^ 32 / 8 = 0
        · exact Or.inl (by rw [if_neg hstop, if_pos hnum])
        · cases hp : readPayload (t % 2 ^ 32 / 8) (t % 2 ^ 32 % 8) rest with
          | none => exact Or.inl (by rw [if_neg hstop, if_neg hnum])
          | some r =>
              exact Or.inr (Or.inr ⟨t, rest, r.1, r.2,
                by rw [if_neg hstop, if_neg hnum], rfl, hstop, hnum, hp⟩)

theorem readField_length {bs rest : Bytes} {f : Field} (h : readField bs = .field f rest) :
    rest.length < bs.length := by
  rcases readField_cases bs with hm | ⟨hs, -⟩ | ⟨t, r, p, r', hf, hv, -, -, hp⟩
  · rw [hm] at h; cases h
  · rw [hs] at h; cases h
  · rw [hf] at h
    cases h
    exact lt_of_le_of_lt (readPayload_length hp) (readVarint_length hv)

theorem readField_append {bs rest : Bytes} {f : Field} (tail : Bytes)
    (h : readField bs = .field f rest) : readField (bs ++ tail) = .field f (rest ++ tail) := by
  rcases readField_cases bs with hm | ⟨hs, -⟩ | ⟨t, r, p, r', hf, hv, hstop, hnum, hp⟩
  · rw [hm] at h; cases h
  · rw [hs] at h; cases h
  · rw [hf] at h
    cases h
    simp only [readField, readVarint_append tail hv, if_neg hstop, if_neg hnum,
      readPayload_append tail hp]

theorem readField_append_stop {bs : Bytes} (tail : Bytes) (h : readField bs = .stop) :
    readField (bs ++ tail) = .stop := by
  rcases readField_cases bs with hm | ⟨-, t, r, hv, hstop⟩ | ⟨t, r, p, r', hf, -⟩
  · rw [hm] at h; cases h
  · simp only [readField, readVarint_append tail hv, if_pos hstop]
  · rw [hf] at h; cases h

/-! ### The split, field by field -/

theorem parseAux_fuel : ∀ (a b : Nat) (bs : Bytes), bs.length ≤ a → bs.length ≤ b →
    parseAux a bs = parseAux b bs := by
  intro a
  induction a with
  | zero =>
      intro b bs ha _
      rw [List.eq_nil_of_length_eq_zero (Nat.le_zero.mp ha)]
      cases b <;> rfl
  | succ a ih =>
      intro b bs ha hb
      cases bs with
      | nil => cases b <;> rfl
      | cons x t =>
          -- A field has a tag at least, so what is left is shorter and either fuel lasts for it.
          obtain ⟨b, rfl⟩ : ∃ b', b = b' + 1 := ⟨b - 1, by simp at hb; omega⟩
          simp only [parseAux]
          cases hf : readField (x :: t) with
          | stop => rfl
          | malformed => rfl
          | field f rest =>
              have hlen := readField_length hf
              simp only [List.length_cons] at hlen ha hb
              dsimp only
              rw [ih b rest (by omega) (by omega)]

@[simp] theorem parse_nil : parse [] = ([], .limit) := rfl

theorem parse_of_field {bs rest : Bytes} {f : Field} (h : readField bs = .field f rest) :
    parse bs = (f :: (parse rest).1, (parse rest).2) := by
  have hlen := readField_length h
  cases bs with
  | nil => simp at hlen
  | cons b t =>
      simp only [List.length_cons] at hlen
      simp only [parse, List.length_cons, parseAux, h]
      rw [parseAux_fuel t.length rest.length rest (by omega) (Nat.le_refl _)]

theorem parse_of_stop {bs : Bytes} (hne : bs ≠ []) (h : readField bs = .stop) :
    parse bs = ([], .stopped) := by
  cases bs with
  | nil => exact absurd rfl hne
  | cons b t => simp only [parse, List.length_cons, parseAux, h]

theorem parse_of_malformed {bs : Bytes} (hne : bs ≠ []) (h : readField bs = .malformed) :
    parse bs = ([], .malformed) := by
  cases bs with
  | nil => exact absurd rfl hne
  | cons b t => simp only [parse, List.length_cons, parseAux, h]

/-! ### Lengths that can be read -/

theorem readScalar_lenDelim_lt {w : Nat} {bs rest p : Bytes}
    (h : readScalar w bs = some (.lenDelim p, rest)) : p.length < 2 ^ 35 := by
  unfold readScalar at h
  split at h
  · rcases Option.map_eq_some_iff.mp h with ⟨q, -, heq⟩
    cases heq
  · rcases Option.map_eq_some_iff.mp h with ⟨q, -, heq⟩
    cases heq
  · rcases Option.bind_eq_some_iff.mp h with ⟨⟨n, r⟩, hn, hrun⟩
    rcases Option.map_eq_some_iff.mp hrun with ⟨⟨run, r'⟩, hq, heq⟩
    cases heq
    unfold readRun at hq
    split_ifs at hq with hle
    cases hq
    -- The run is as long as its length says, and that is a varint of five bytes.
    have hlt := readVarint_lt hn
    rw [List.length_take_of_le hle]
    have hpow : (128 : Nat) ^ 5 = 2 ^ 35 := by norm_num
    show n < 2 ^ 35
    omega
  · rcases Option.map_eq_some_iff.mp h with ⟨q, -, heq⟩
    cases heq
  · cases h

theorem readField_lenDelim_lt {bs rest p : Bytes} {f : Field} (h : readField bs = .field f rest)
    (hp : f.payload = .lenDelim p) : p.length < 2 ^ 35 := by
  rcases readField_cases bs with hm | ⟨hs, -⟩ | ⟨t, r, q, r', hf, -, -, -, hq⟩
  · rw [hm] at h
    cases h
  · rw [hs] at h
    cases h
  · rw [hf] at h
    cases h
    unfold readPayload at hq
    split_ifs at hq with hgroup
    · rcases Option.map_eq_some_iff.mp hq with ⟨x, -, heq⟩
      cases heq
      cases hp
    · have hpayload : q = .lenDelim p := hp
      rw [hpayload] at hq
      exact readScalar_lenDelim_lt hq

/-- No field that is read carries more bytes than its length can say. -/
theorem lenDelim_lt_of_mem_parse {bs p : Bytes} {f : Field} (hf : f ∈ (parse bs).1)
    (hp : f.payload = .lenDelim p) : p.length < 2 ^ 35 := by
  have haux : ∀ (fuel : Nat) (bs : Bytes), f ∈ (parseAux fuel bs).1 → p.length < 2 ^ 35 := by
    intro fuel
    induction fuel with
    | zero =>
        intro bs h
        cases bs <;> simp [parseAux] at h
    | succ fuel ih =>
        intro bs h
        cases bs with
        | nil => simp [parseAux] at h
        | cons b bs =>
            cases hread : readField (b :: bs) with
            | stop => simp [parseAux, hread] at h
            | malformed => simp [parseAux, hread] at h
            | field g rest =>
                simp only [parseAux, hread, List.mem_cons] at h
                rcases h with rfl | h
                · exact readField_lenDelim_lt hread hp
                · exact ih rest h
  exact haux bs.length bs hf

/-- A zero byte where a tag would stand ends the message. -/
theorem parse_zero (bs : Bytes) : parse (0 :: bs) = ([], .stopped) :=
  parse_of_stop (by simp) (by simp [readField, readVarint])

/-- There are no fields in zero bytes. -/
theorem parse_zeros (n : Nat) : (parse (List.replicate n 0)).1 = [] := by
  cases n with
  | zero => rfl
  | succ n => rw [List.replicate_succ, parse_zero]

/-- **Bytes behind a complete message are its further fields.** -/
theorem parse_append_of_limit {bs : Bytes} {fs : List Field} (tail : Bytes)
    (h : parse bs = (fs, .limit)) :
    parse (bs ++ tail) = (fs ++ (parse tail).1, (parse tail).2) := by
  induction hn : bs.length using Nat.strongRecOn generalizing bs fs with
  | ind n ih =>
      by_cases hne : bs = []
      · subst hne
        simp only [parse_nil, Prod.mk.injEq] at h
        simp [← h.1]
      · rcases hf : readField bs with ⟨f, rest⟩ | _ | _
        · rw [parse_of_field hf, Prod.mk.injEq] at h
          have hrest := ih rest.length (hn ▸ readField_length hf)
            (Prod.ext rfl h.2 : parse rest = ((parse rest).1, .limit)) rfl
          rw [parse_of_field (readField_append tail hf), hrest, ← h.1]
          rfl
        · rw [parse_of_stop hne hf] at h; cases h
        · rw [parse_of_malformed hne hf] at h; cases h

/-- Bytes behind a tag that ends the message are not looked at. -/
theorem parse_append_of_stopped {bs : Bytes} {fs : List Field} (tail : Bytes)
    (h : parse bs = (fs, .stopped)) : parse (bs ++ tail) = (fs, .stopped) := by
  induction hn : bs.length using Nat.strongRecOn generalizing bs fs with
  | ind n ih =>
      by_cases hne : bs = []
      · subst hne
        simp at h
      · rcases hf : readField bs with ⟨f, rest⟩ | _ | _
        · rw [parse_of_field hf, Prod.mk.injEq] at h
          have hrest := ih rest.length (hn ▸ readField_length hf)
            (Prod.ext rfl h.2 : parse rest = ((parse rest).1, .stopped)) rfl
          rw [parse_of_field (readField_append tail hf), hrest, ← h.1]
        · rw [parse_of_stop hne hf] at h
          rw [parse_of_stop (by simp [hne]) (readField_append_stop tail hf), ← h]
        · rw [parse_of_malformed hne hf] at h; cases h

/-- Fields that were read are read again when bytes follow, wherever the split stopped. -/
theorem parse_append_prefix (bs tail : Bytes) : (parse bs).1 <+: (parse (bs ++ tail)).1 := by
  induction hn : bs.length using Nat.strongRecOn generalizing bs with
  | ind n ih =>
      by_cases hne : bs = []
      · subst hne
        exact List.nil_prefix
      · rcases hf : readField bs with ⟨f, rest⟩ | _ | _
        · rw [parse_of_field hf, parse_of_field (readField_append tail hf)]
          exact List.prefix_cons_inj f |>.mpr (ih rest.length (hn ▸ readField_length hf) rest rfl)
        · rw [parse_of_stop hne hf]
          exact List.nil_prefix
        · rw [parse_of_malformed hne hf]
          exact List.nil_prefix

/-! ## Encoding -/

/-- The wire type of a payload. -/
def Payload.wireType : Payload → Nat
  | .varint _ => 0
  | .fixed64 _ => 1
  | .lenDelim _ => 2
  | .group => 3
  | .fixed32 _ => 5

/-- The bytes of a payload. -/
def Payload.encode : Payload → Bytes
  | .varint n => encodeVarint n
  | .fixed64 bs => bs
  | .lenDelim bs => encodeVarint bs.length ++ bs
  | .group => []
  | .fixed32 bs => bs

/-- The bytes of a field: its tag and its payload. -/
def Field.encode (f : Field) : Bytes :=
  encodeVarint (f.num * 8 + f.payload.wireType) ++ f.payload.encode

/-- The bytes of a sequence of fields. -/
def encode (fs : List Field) : Bytes := fs.flatMap Field.encode

/-- A payload a serializer writes: a varint of 64 bits, or a run of bytes short enough for
its length to be read back. -/
def Payload.WF : Payload → Prop
  | .varint n => n < 2 ^ 64
  | .lenDelim bs => bs.length < 2 ^ 35
  | _ => False

/-- A field a serializer writes. -/
structure Field.WF (f : Field) : Prop where
  num_pos : 0 < f.num
  num_lt : f.num < 2 ^ 29
  payload : f.payload.WF

/-- A field that is well-formed but for the length of what it carries. -/
structure Field.Plain (f : Field) : Prop where
  num_pos : 0 < f.num
  num_lt : f.num < 2 ^ 29
  payload : match f.payload with
    | .varint n => n < 2 ^ 64
    | .lenDelim _ => True
    | _ => False

@[simp] theorem encode_nil : encode [] = [] := rfl

theorem encode_cons (f : Field) (fs : List Field) :
    encode (f :: fs) = f.encode ++ encode fs := by
  simp [encode, List.flatMap_cons]

theorem encode_append (fs gs : List Field) : encode (fs ++ gs) = encode fs ++ encode gs := by
  simp [encode, List.flatMap_append]

theorem readScalar_encode {p : Payload} (h : p.WF) (rest : Bytes) :
    readScalar p.wireType (p.encode ++ rest) = some (p, rest) := by
  cases p with
  | varint n =>
      have hn : n < 2 ^ 64 := h
      have h70 : n < 128 ^ (9 + 1) := lt_trans hn (by norm_num)
      simp only [Payload.wireType, Payload.encode, readScalar,
        readVarint_encodeVarint rest (Nat.le_refl 9) h70, Option.map_some, Nat.mod_eq_of_lt hn]
  | lenDelim bs =>
      have hlen : bs.length < 128 ^ (4 + 1) := lt_of_lt_of_le h (by norm_num)
      have hrun : readRun bs.length (bs ++ rest) = some (bs, rest) := by
        simp [readRun]
      simp only [Payload.wireType, Payload.encode, readScalar, List.append_assoc,
        readVarint_encodeVarint (bs ++ rest) (by norm_num : 4 ≤ 9) hlen, Option.bind_some, hrun,
        Option.map_some]
  | fixed64 bs => exact absurd h id
  | group => exact absurd h id
  | fixed32 bs => exact absurd h id

/-- **Reading a field undoes writing it**, whatever follows. -/
theorem readField_encode {f : Field} (h : f.WF) (rest : Bytes) :
    readField (f.encode ++ rest) = .field f rest := by
  obtain ⟨num, p⟩ := f
  obtain ⟨hpos, hlt, hp⟩ := h
  simp only at hpos hlt hp
  have hscalar := readScalar_encode hp rest
  -- Only varints and runs are written, so the tag ends no group and no message.
  have hw : p.wireType = 0 ∨ p.wireType = 2 := by
    cases p with
    | varint n => exact Or.inl rfl
    | lenDelim bs => exact Or.inr rfl
    | fixed64 bs => exact absurd hp id
    | group => exact absurd hp id
    | fixed32 bs => exact absurd hp id
  have htag : num * 8 + p.wireType < 128 ^ (4 + 1) := by
    norm_num
    omega
  have hmod : (num * 8 + p.wireType) % 2 ^ 32 = num * 8 + p.wireType := Nat.mod_eq_of_lt (by omega)
  have hdiv : (num * 8 + p.wireType) / 8 = num := by omega
  have htype : (num * 8 + p.wireType) % 8 = p.wireType := by omega
  simp only [readField, Field.encode, List.append_assoc,
    readVarint_encodeVarint (p.encode ++ rest) (by norm_num : 4 ≤ 9) htag, hmod, hdiv, htype]
  rw [if_neg (by omega), if_neg (by omega), readPayload, if_neg (by omega), hscalar]

/-- **The round trip on fields**, in front of any bytes. -/
theorem parse_encode_append {fs : List Field} (h : ∀ f ∈ fs, f.WF) (rest : Bytes) :
    parse (encode fs ++ rest) = (fs ++ (parse rest).1, (parse rest).2) := by
  induction fs with
  | nil => rfl
  | cons f fs ih =>
      rw [encode_cons, List.append_assoc, parse_of_field (readField_encode (h f (by simp)) _),
        ih (fun g hg => h g (by simp [hg]))]
      rfl

theorem parse_encode {fs : List Field} (h : ∀ f ∈ fs, f.WF) : parse (encode fs) = (fs, .limit) := by
  have := parse_encode_append h []
  simpa using this

/-! ## Sizes

A field number below 16 makes a tag of one byte. So a field takes up a byte and the size of
its payload (`varintSize`, `delimSize`). -/

/-- The size of a varint field. -/
def varintSize (n : Nat) : Nat := 1 + (encodeVarint n).length

/-- The size of a length-delimited field that carries `n` bytes. -/
def delimSize (n : Nat) : Nat := 1 + (encodeVarint n).length + n

theorem encodeVarint_length_of_lt {n : Nat} (h : n < 128) : (encodeVarint n).length = 1 := by
  simp [encodeVarint, putVarint, h]

theorem encodeVarint_length_two {n : Nat} (h : 128 ≤ n) (h' : n < 16384) :
    (encodeVarint n).length = 2 := by
  have hdiv : n / 128 < 128 := by omega
  simp [encodeVarint, putVarint, Nat.not_lt.mpr h, hdiv]

theorem putVarint_length_le (k n j : Nat) (h : n < 128 ^ (j + 1)) :
    (putVarint k n).length ≤ j + 1 := by
  induction j generalizing k n with
  | zero =>
      have hn : n < 128 := by simpa using h
      cases k <;> simp [putVarint, hn]
  | succ j ih =>
      have hdiv : n / 128 < 128 ^ (j + 1) := by
        rw [Nat.div_lt_iff_lt_mul (by norm_num)]
        exact lt_of_lt_of_eq h (pow_succ 128 (j + 1))
      cases k with
      | zero => simp [putVarint]
      | succ k =>
          rw [putVarint]
          split_ifs
          · simp
          · simpa using ih k (n / 128) hdiv

/-- A larger number takes no fewer bytes. -/
theorem putVarint_length_mono (k : Nat) {n m : Nat} (h : n ≤ m) :
    (putVarint k n).length ≤ (putVarint k m).length := by
  induction k generalizing n m with
  | zero => exact Nat.le_refl 1
  | succ k ih =>
      have hrest := ih (Nat.div_le_div_right (c := 128) h)
      unfold putVarint
      split_ifs with hn hm
      · exact Nat.le_refl 1
      · simp
      · omega
      · simpa using hrest

theorem delimSize_mono {n m : Nat} (h : n ≤ m) : delimSize n ≤ delimSize m := by
  have hlen := putVarint_length_mono 9 h
  rw [delimSize, delimSize, encodeVarint, encodeVarint]
  omega

theorem varintSize_le {n : Nat} (h : n < 2 ^ 32) : varintSize n ≤ 6 := by
  have hlen := putVarint_length_le 9 n 4 (lt_trans h (by norm_num))
  rw [varintSize, encodeVarint]
  omega

theorem delimSize_of_lt {n : Nat} (h : n < 128) : delimSize n = n + 2 := by
  rw [delimSize, encodeVarint_length_of_lt h]
  omega

/-- **How long a field may be for its content to keep within a bound** that takes two bytes to
write. -/
theorem delimSize_le_iff {n k : Nat} (hk : 127 ≤ k) (hk' : k + 2 < 16384) :
    delimSize n ≤ k + 3 ↔ n ≤ k := by
  rw [delimSize]
  rcases Nat.lt_or_ge n 128 with hsmall | hbig
  · rw [encodeVarint_length_of_lt hsmall]
    omega
  · rcases Nat.lt_or_ge n 16384 with hn | hn
    · rw [encodeVarint_length_two hbig hn]
      omega
    · -- A content this long is over the bound by itself.
      omega

theorem encode_length_cons (f : Field) (fs : List Field) :
    (encode (f :: fs)).length = f.encode.length + (encode fs).length := by
  rw [encode_cons, List.length_append]

theorem varint_encode_length {num : Nat} (h : num < 16) (n : Nat) :
    (Field.encode ⟨num, .varint n⟩).length = varintSize n := by
  have htag : num * 8 + 0 < 128 := by omega
  simp only [Field.encode, Payload.wireType, Payload.encode, List.length_append,
    encodeVarint_length_of_lt htag, varintSize]

theorem lenDelim_encode_length {num : Nat} (h : num < 16) (bs : Bytes) :
    (Field.encode ⟨num, .lenDelim bs⟩).length = delimSize bs.length := by
  have htag : num * 8 + 2 < 128 := by omega
  simp only [Field.encode, Payload.wireType, Payload.encode, List.length_append,
    encodeVarint_length_of_lt htag, delimSize]
  omega

/-! ## Merging fields into a value

A message type is given by what one field does to a value, `upd : σ → Field → σ × Bool`; the
flag says whether the field was well-formed for its declaration. -/

section Merge

variable {σ τ : Type}

/-- Merge fields in order, up to the first that is not well-formed; what that one left in the
value stays. -/
def mergeFields (upd : σ → Field → σ × Bool) : σ → List Field → σ × Bool
  | s, [] => (s, true)
  | s, f :: fs => if (upd s f).2 then mergeFields upd (upd s f).1 fs else upd s f

/-- Merge a byte string into a value. The flag: every field was well-formed, and the bytes
were used up. -/
def mergeFrom (upd : σ → Field → σ × Bool) (s : σ) (bs : Bytes) : σ × Bool :=
  ((mergeFields upd s (parse bs).1).1,
    (mergeFields upd s (parse bs).1).2 && (parse bs).2 == .limit)

/-- A varint field: `put` stores the number. -/
def onVarint (put : σ → Nat → σ) (s : σ) : Payload → σ × Bool
  | .varint n => (put s n, true)
  | _ => (s, true)

/-- A string field: `put` stores the bytes, and the field is well-formed if `ok` accepts them. -/
def onString (ok : Bytes → Bool) (put : σ → Bytes → σ) (s : σ) : Payload → σ × Bool
  | .lenDelim bs => (put s bs, ok bs)
  | _ => (s, true)

/-- A message field: the bytes are merged into `get s`, what the field holds so far, and
`put` stores the result. -/
def onMessage (upd : τ → Field → τ × Bool) (get : σ → τ) (put : σ → τ → σ) (s : σ) :
    Payload → σ × Bool
  | .lenDelim bs => (put s (mergeFrom upd (get s) bs).1, (mergeFrom upd (get s) bs).2)
  | _ => (s, true)

theorem mergeFields_cons_of_ok {upd : σ → Field → σ × Bool} {s t : σ} {f : Field}
    (fs : List Field) (h : upd s f = (t, true)) :
    mergeFields upd s (f :: fs) = mergeFields upd t fs := by
  simp [mergeFields, h]

theorem mergeFields_append {upd : σ → Field → σ × Bool} {s t : σ} {fs : List Field}
    (gs : List Field) (h : mergeFields upd s fs = (t, true)) :
    mergeFields upd s (fs ++ gs) = mergeFields upd t gs := by
  induction fs generalizing s with
  | nil => cases h; rfl
  | cons f fs ih =>
      simp only [mergeFields] at h
      split_ifs at h with hf
      · rw [List.cons_append, mergeFields_cons_of_ok _ (Prod.ext rfl hf), ih h]
      · rw [h] at hf; exact absurd rfl hf

/-- Fields behind one that is not well-formed are not looked at. -/
theorem mergeFields_append_of_fail {upd : σ → Field → σ × Bool} {s t : σ} {fs : List Field}
    (gs : List Field) (h : mergeFields upd s fs = (t, false)) :
    mergeFields upd s (fs ++ gs) = (t, false) := by
  induction fs generalizing s with
  | nil => cases h
  | cons f fs ih =>
      simp only [List.cons_append, mergeFields] at h ⊢
      split_ifs at h ⊢ with hf
      · exact ih h
      · exact h

/-- **Reading a message undoes writing it.** -/
theorem mergeFrom_encode {upd : σ → Field → σ × Bool} {s t : σ} {fs : List Field}
    (hwf : ∀ f ∈ fs, f.WF) (h : mergeFields upd s fs = (t, true)) :
    mergeFrom upd s (encode fs) = (t, true) := by
  simp [mergeFrom, parse_encode hwf, h]

/-- **Zero bytes behind a message do not change what is read**, only whether the read is
reported as complete. -/
theorem mergeFrom_append_zeros (upd : σ → Field → σ × Bool) (s : σ) {bs : Bytes}
    (h : (parse bs).2 = .limit) (n : Nat) :
    (mergeFrom upd s (bs ++ List.replicate n 0)).1 = (mergeFrom upd s bs).1 := by
  have hpad := parse_append_of_limit (List.replicate n 0) (Prod.ext rfl h : parse bs = (_, .limit))
  simp only [mergeFrom, hpad, parse_zeros, List.append_nil]

/-- The round trip with padding behind the message. -/
theorem mergeFrom_encode_zeros {upd : σ → Field → σ × Bool} {s t : σ} {fs : List Field}
    (hwf : ∀ f ∈ fs, f.WF) (h : mergeFields upd s fs = (t, true)) (n : Nat) :
    (mergeFrom upd s (encode fs ++ List.replicate n 0)).1 = t := by
  rw [mergeFrom_append_zeros upd s (by rw [parse_encode hwf]), mergeFrom_encode hwf h]

/-- The fields of an optional member: none, or one that leaves the value as it should be. -/
theorem mergeFields_optional {α : Type} {upd : σ → Field → σ × Bool} {s t : σ} {o : Option α}
    {mk : α → Field} (hnone : o = none → t = s)
    (hsome : ∀ a, o = some a → upd s (mk a) = (t, true)) :
    mergeFields upd s (o.map mk).toList = (t, true) := by
  cases o with
  | none => rw [hnone rfl]; rfl
  | some a => exact mergeFields_cons_of_ok [] (hsome a rfl)

/-- A property of the fields of an optional member. -/
theorem forall_optional {α : Type} {P : Field → Prop} {o : Option α} {mk : α → Field}
    (h : ∀ a, o = some a → P (mk a)) : ∀ f ∈ (o.map mk).toList, P f := by
  intro f hf
  obtain ⟨a, ha, rfl⟩ := Option.map_eq_some_iff.mp (Option.mem_toList.mp hf)
  exact h a ha

/-- The fields of a repeated member, each of which appends its element. -/
theorem mergeFields_repeated {α : Type} {upd : σ → Field → σ × Bool} {mk : α → Field}
    (state : List α → σ) {xs : List α}
    (hstep : ∀ done, ∀ x ∈ xs, upd (state done) (mk x) = (state (done ++ [x]), true)) :
    ∀ done, mergeFields upd (state done) (xs.map mk) = (state (done ++ xs), true) := by
  induction xs with
  | nil => intro done; simp [mergeFields]
  | cons x xs ih =>
      intro done
      rw [List.map_cons, mergeFields_cons_of_ok _ (hstep done x (by simp)),
        ih (fun d y hy => hstep d y (by simp [hy])) (done ++ [x]), List.append_assoc]
      rfl

end Merge

/-! ## Message types -/

/-- A message type: its value before any field is read, what a field does to a value, and
the fields a value is written as. -/
class Message (σ : Type) where
  empty : σ
  merge : σ → Field → σ × Bool
  fields : σ → List Field

namespace Message

variable {σ τ : Type} [Message σ] [Message τ]

/-- The serialization of a message. -/
def serialize (m : σ) : Bytes := encode (fields m)

/-- The size of the serialization. -/
def byteSizeLong (m : σ) : Nat := (serialize m).length

/-- Serialize into a buffer of the given capacity: nothing is written if the serialization
does not fit. -/
def serializeToArray (m : σ) (buf : Bytes) (capacity : Nat) : Bytes × Bool :=
  if byteSizeLong m ≤ capacity then (serialize m ++ buf.drop (byteSizeLong m), true)
  else (buf, false)

/-- Read a message from all of a byte string. On a failed read the message holds the fields
read so far, a string that is not UTF-8 with them, and nothing of a field that runs over. -/
def parseFromArray (bs : Bytes) : σ × Bool := mergeFrom merge empty bs

/-- A message that can be read back: its fields are well-formed, and merging them gives the
message. -/
structure Sound (m : σ) : Prop where
  wf : ∀ f ∈ fields m, f.WF
  merge_fields : mergeFields merge empty (fields m) = (m, true)

/-- The field that holds a message. -/
def toField (num : Nat) (m : σ) : Field := ⟨num, .lenDelim (serialize m)⟩

theorem Sound.parse_serialize {m : σ} (h : Sound m) : parseFromArray (serialize m) = (m, true) :=
  mergeFrom_encode h.wf h.merge_fields

/-- What follows a message is merged into it. -/
theorem Sound.parse_append {m : σ} (h : Sound m) (tail : Bytes) :
    (parseFromArray (serialize m ++ tail) : σ × Bool).1 = (mergeFrom merge m tail).1 := by
  rw [parseFromArray, mergeFrom, serialize, parse_encode_append h.wf,
    mergeFields_append _ h.merge_fields]
  rfl

/-- **A message read from a buffer it only partly fills**, the rest being zero. -/
theorem Sound.parse_zeros {m : σ} (h : Sound m) (n : Nat) :
    (parseFromArray (serialize m ++ List.replicate n 0) : σ × Bool).1 = m :=
  mergeFrom_encode_zeros h.wf h.merge_fields n

/-- A message that is read to its end inside the bytes: a tag ends it, or a field is not
well-formed for its declaration. -/
def Closed (σ : Type) [Message σ] (bs : Bytes) : Prop :=
  (parse bs).2 = .stopped ∨ (mergeFields merge (empty : σ) (parse bs).1).2 = false

instance (σ : Type) [Message σ] (bs : Bytes) : Decidable (Closed σ bs) :=
  inferInstanceAs (Decidable (_ ∨ _))

/-- Bytes behind a closed message are not looked at. -/
theorem Closed.parse_append {bs : Bytes} (h : Closed σ bs) (tail : Bytes) :
    (parseFromArray (bs ++ tail) : σ × Bool).1 = (parseFromArray bs).1 := by
  rcases h with hstopped | hfail
  · have hparse := parse_append_of_stopped tail (Prod.ext rfl hstopped : parse bs = (_, .stopped))
    simp only [parseFromArray, mergeFrom, hparse]
  · obtain ⟨more, hmore⟩ := parse_append_prefix bs tail
    simp only [parseFromArray, mergeFrom, ← hmore]
    rw [mergeFields_append_of_fail more (Prod.ext rfl hfail)]

/-- What is framed and not closed is a whole number of fields. -/
theorem limit_of_framed {inside : Nat → Bytes → Bool} {bs : Bytes} (h : framed inside bs = true)
    (hopen : ¬Closed σ bs) : (parse bs).2 = .limit := by
  unfold framed at h
  rcases hend : (parse bs).2 with _ | _ | _
  · rfl
  · exact absurd (Or.inl hend) hopen
  · simp [hend] at h

/-- Nor are bytes behind a whole number of fields, if no field can be read from them. -/
theorem parse_append_of_no_field {bs tail : Bytes} (h : (parse bs).2 = .limit)
    (htail : (parse tail).1 = []) :
    (parseFromArray (bs ++ tail) : σ × Bool).1 = (parseFromArray bs).1 := by
  have hparse := parse_append_of_limit tail (Prod.ext rfl h : parse bs = (_, .limit))
  simp only [parseFromArray, mergeFrom, hparse, htail, List.append_nil]

/-- Bytes that are a whole message are read as that message also in front of zeros. -/
theorem parse_append_zeros {m : σ} {bs : Bytes} (h : parseFromArray bs = (m, true)) (n : Nat) :
    (parseFromArray (bs ++ List.replicate n 0) : σ × Bool).1 = m := by
  have hflag : (mergeFields merge (empty : σ) (parse bs).1).2 && (parse bs).2 == .limit :=
    congrArg Prod.snd h
  have hlimit : (parse bs).2 = .limit := by
    rw [Bool.and_eq_true, beq_iff_eq] at hflag
    exact hflag.2
  rw [parse_append_of_no_field hlimit (parse_zeros n), h]

theorem serializeToArray_of_le {m : σ} {buf : Bytes} {capacity : Nat}
    (h : byteSizeLong m ≤ capacity) :
    serializeToArray m buf capacity = (serialize m ++ buf.drop (byteSizeLong m), true) := if_pos h

/-- Reading the field that holds a message, into a member that held nothing before. -/
theorem onMessage_toField {ρ : Type} {m : σ} (h : Sound m) (get : ρ → σ) (put : ρ → σ → ρ)
    {s : ρ} (hget : get s = empty) (num : Nat) :
    onMessage merge get put s (toField num m).payload = (put s m, true) := by
  have hparse : mergeFrom merge (get s) (serialize m) = (m, true) := by
    rw [hget]; exact h.parse_serialize
  simp only [toField, onMessage, hparse]

/-- The content of a length-delimited field is shorter than the message around it. -/
theorem lenDelim_length_le {m : σ} {num : Nat} {bs : Bytes}
    (h : (⟨num, .lenDelim bs⟩ : Field) ∈ fields m) : bs.length ≤ byteSizeLong m := by
  obtain ⟨fs, gs, heq⟩ := List.append_of_mem h
  rw [byteSizeLong, serialize, heq, encode_append, encode_cons]
  simp only [List.length_append, Field.encode, Payload.encode]
  omega

/-- In a message of a size the wire format can express, only the numbers in the fields are
left to check. -/
theorem wf_of_plain {m : σ} (hsize : byteSizeLong m < 2 ^ 35) (h : ∀ f ∈ fields m, f.Plain) :
    ∀ f ∈ fields m, f.WF := by
  rintro ⟨num, p⟩ hf
  obtain ⟨hpos, hlt, hp⟩ := h _ hf
  refine ⟨hpos, hlt, ?_⟩
  cases p with
  | varint n => exact hp
  | lenDelim bs => exact lt_of_le_of_lt (lenDelim_length_le hf) hsize
  | fixed64 bs => exact hp
  | group => exact hp
  | fixed32 bs => exact hp

theorem toField_encode_length {num : Nat} (h : num < 16) (m : σ) :
    (toField num m).encode.length = delimSize (byteSizeLong m) :=
  lenDelim_encode_length h (serialize m)

theorem toField_size_le {m : σ} {num : Nat} {sub : τ} (h : toField num sub ∈ fields m) :
    byteSizeLong sub ≤ byteSizeLong m :=
  lenDelim_length_le h

end Message

end ChatApp.Lib.Wire
