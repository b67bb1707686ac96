import Mathlib.Tactic

set_option autoImplicit false

/-! # Bytes, pointers and bounds

Code that reads and writes raw memory is embedded as a computation in `Except Fault`: a
pointer is the list of bytes from where it points to the end of its block (`Bytes`, for
reading) or a block with an offset (`Dest`, for writing), and an access beyond the block is
the fault `outOfBounds` instead of a value. The file has the two accesses (`readBytes`,
`Dest.memcpy`), the 32-bit word in either byte order, and the rules by which a chain of
writes becomes one write of the concatenation (`Dest.memcpy_append`, `writeFront_headerLast`).
-/

namespace ChatApp.Lib

/-- A block of memory, a string, a stream: a list of bytes. -/
abbrev Bytes := List UInt8

/-- What stops a memory-handling computation: an access outside the block a pointer belongs
to, or a failed `assert`. -/
inductive Fault
  | outOfBounds
  | assertFailed
  deriving Repr, DecidableEq

/-! ## The fault monad -/

section Fault

variable {ε α β : Type}

@[simp] theorem ok_bind (a : α) (f : α → Except ε β) :
    ((Except.ok a : Except ε α) >>= f) = f a := rfl

@[simp] theorem error_bind (e : ε) (f : α → Except ε β) :
    ((Except.error e : Except ε α) >>= f) = .error e := rfl

@[simp] theorem pure_eq_ok (a : α) : (pure a : Except ε α) = .ok a := rfl

/-- A run that ends in a value: its first step did, and the rest did on that value. -/
theorem bind_eq_ok {x : Except ε α} {f : α → Except ε β} {b : β} :
    (x >>= f) = .ok b ↔ ∃ a, x = .ok a ∧ f a = .ok b := by
  cases x with
  | ok a => simp
  | error e => simp

theorem map_eq_ok {x : Except ε α} {f : α → β} {b : β} :
    x.map f = .ok b ↔ ∃ a, x = .ok a ∧ f a = b := by
  cases x with
  | ok a => simp [Except.map]
  | error e => simp [Except.map]

/-- `assert(b)`. -/
def assertThat (b : Bool) : Except Fault Unit :=
  if b then .ok () else .error .assertFailed

@[simp] theorem assertThat_true : assertThat true = .ok () := rfl

@[simp] theorem assertThat_false : assertThat false = .error .assertFailed := rfl

end Fault

/-! ## Reading -/

/-- Read `n` bytes through a pointer. -/
def readBytes (data : Bytes) (n : Nat) : Except Fault Bytes :=
  if n ≤ data.length then .ok (data.take n) else .error .outOfBounds

/-- Read one byte through a pointer. -/
def read8 : Bytes → Except Fault UInt8
  | [] => .error .outOfBounds
  | b :: _ => .ok b

theorem readBytes_of_le {data : Bytes} {n : Nat} (h : n ≤ data.length) :
    readBytes data n = .ok (data.take n) := if_pos h

theorem readBytes_of_lt {data : Bytes} {n : Nat} (h : data.length < n) :
    readBytes data n = .error .outOfBounds := if_neg (Nat.not_le.mpr h)

theorem readBytes_append {a b : Bytes} {n : Nat} (h : n = a.length) :
    readBytes (a ++ b) n = .ok a := by
  subst h
  rw [readBytes_of_le (by simp), List.take_left]

@[simp] theorem read8_cons (b : UInt8) (bs : Bytes) : read8 (b :: bs) = .ok b := rfl

@[simp] theorem read8_nil : read8 [] = .error .outOfBounds := rfl

theorem read8_eq_ok {data : Bytes} {b : UInt8} : read8 data = .ok b ↔ data.head? = some b := by
  cases data with
  | nil => simp
  | cons a t => simp

theorem readBytes_isOk {data : Bytes} {n : Nat} :
    (∃ bs, readBytes data n = .ok bs) ↔ n ≤ data.length := by
  unfold readBytes
  split_ifs with h <;> simp [h]

theorem readBytes_eq_ok {data bs : Bytes} {n : Nat} :
    readBytes data n = .ok bs ↔ bs.length = n ∧ bs <+: data := by
  constructor
  · intro h
    have hle : n ≤ data.length := readBytes_isOk.mp ⟨bs, h⟩
    rw [readBytes_of_le hle, Except.ok.injEq] at h
    rw [← h]
    exact ⟨List.length_take_of_le hle, List.take_prefix n data⟩
  · rintro ⟨hlen, rest, rfl⟩
    exact readBytes_append hlen.symm

/-! ## 32-bit words -/

/-- The order in which the bytes of a word lie in memory. -/
inductive ByteOrder
  | little
  | big
  deriving Repr, DecidableEq

/-- The four bytes of a word, least significant first. -/
def leBytes (w : UInt32) : Bytes :=
  [UInt8.ofNat w.toNat, UInt8.ofNat (w.toNat / 256), UInt8.ofNat (w.toNat / 65536),
    UInt8.ofNat (w.toNat / 16777216)]

/-- The word whose four bytes, least significant first, the list starts with. -/
def leWord : Bytes → UInt32
  | b0 :: b1 :: b2 :: b3 :: _ =>
      UInt32.ofNat (b0.toNat + 256 * b1.toNat + 65536 * b2.toNat + 16777216 * b3.toNat)
  | _ => 0

/-- The bytes of a word as a machine with this byte order stores them. -/
def ByteOrder.toBytes : ByteOrder → UInt32 → Bytes
  | .little, w => leBytes w
  | .big, w => (leBytes w).reverse

/-- The word a machine with this byte order loads from four bytes. -/
def ByteOrder.ofBytes : ByteOrder → Bytes → UInt32
  | .little, bs => leWord bs
  | .big, bs => leWord bs.reverse

@[simp] theorem ByteOrder.toBytes_length (bo : ByteOrder) (w : UInt32) :
    (bo.toBytes w).length = 4 := by
  cases bo <;> rfl

theorem leWord_leBytes (w : UInt32) : leWord (leBytes w) = w := by
  have hw := w.toNat_lt
  apply UInt32.toNat_inj.mp
  simp only [leBytes, leWord, UInt8.toNat_ofNat', UInt32.toNat_ofNat']
  omega

/-- Loading undoes storing on a machine of either byte order. -/
@[simp] theorem ByteOrder.ofBytes_toBytes (bo : ByteOrder) (w : UInt32) :
    bo.ofBytes (bo.toBytes w) = w := by
  cases bo with
  | little => exact leWord_leBytes w
  | big => simp only [ofBytes, toBytes, List.reverse_reverse, leWord_leBytes]

theorem leBytes_leWord {bs : Bytes} (h : bs.length = 4) : leBytes (leWord bs) = bs := by
  obtain ⟨b0, b1, b2, b3, rfl⟩ := List.length_eq_four.mp h
  have h0 := b0.toNat_lt
  have h1 := b1.toNat_lt
  have h2 := b2.toNat_lt
  have h3 := b3.toNat_lt
  simp only [leWord, leBytes, UInt32.toNat_ofNat', List.cons.injEq, ← UInt8.toNat_inj,
    UInt8.toNat_ofNat', and_true]
  omega

/-- Storing undoes loading. -/
theorem ByteOrder.toBytes_ofBytes (bo : ByteOrder) {bs : Bytes} (h : bs.length = 4) :
    bo.toBytes (bo.ofBytes bs) = bs := by
  cases bo with
  | little => exact leBytes_leWord h
  | big =>
      simp only [ofBytes, toBytes]
      rw [leBytes_leWord (by rw [List.length_reverse, h]), List.reverse_reverse]

@[simp] theorem ByteOrder.ofBytes_zero (bo : ByteOrder) : bo.ofBytes [0, 0, 0, 0] = 0 := by
  cases bo <;> rfl

/-- The `int` a larger integer is assigned to. -/
def toInt32 (n : Nat) : Int := (n : Int).bmod (2 ^ 32)

theorem toInt32_of_lt {n : Nat} (h : n < 2 ^ 31) : toInt32 n = n := by
  unfold toInt32
  apply Int.bmod_eq_of_le
  · omega
  · omega

theorem word_sub_eq_zero_iff {a b : UInt32} : a - b = 0 ↔ a = b := by
  constructor
  · intro h
    rw [← UInt32.sub_add_cancel a b, h, UInt32.zero_add]
  · intro h
    rw [h, UInt32.sub_self]

/-- Read a word through a pointer. -/
def read32 (bo : ByteOrder) (data : Bytes) : Except Fault UInt32 := do
  let bs ← readBytes data 4
  return bo.ofBytes bs

theorem read32_toBytes (bo : ByteOrder) (w : UInt32) (rest : Bytes) :
    read32 bo (bo.toBytes w ++ rest) = .ok w := by
  simp only [read32, readBytes_append (bo.toBytes_length w).symm, ok_bind, bo.ofBytes_toBytes,
    pure_eq_ok]

/-- A word can be read exactly when the block starts with the bytes of one. -/
theorem read32_eq_ok {bo : ByteOrder} {data : Bytes} {w : UInt32} :
    read32 bo data = .ok w ↔ bo.toBytes w <+: data := by
  constructor
  · intro h
    obtain ⟨bs, hbs, hw⟩ := bind_eq_ok.mp h
    have hle : 4 ≤ data.length := readBytes_isOk.mp ⟨bs, hbs⟩
    rw [readBytes_of_le hle, Except.ok.injEq] at hbs
    rw [pure_eq_ok, Except.ok.injEq] at hw
    rw [← hw, bo.toBytes_ofBytes (by rw [← hbs, List.length_take_of_le hle]), ← hbs]
    exact List.take_prefix 4 data
  · rintro ⟨rest, rfl⟩
    exact read32_toBytes bo w rest

theorem read32_of_le {bo : ByteOrder} {data : Bytes} (h : 4 ≤ data.length) :
    read32 bo data = .ok (bo.ofBytes (data.take 4)) := by
  simp only [read32, readBytes_of_le h, ok_bind, pure_eq_ok]

theorem read32_of_lt {bo : ByteOrder} {data : Bytes} (h : data.length < 4) :
    read32 bo data = .error .outOfBounds := by
  simp only [read32, readBytes_of_lt h, error_bind]

/-! ## Writing -/

/-- A pointer to write through: the block it belongs to and its offset in the block. -/
structure Dest where
  buf : Bytes
  off : Nat
  deriving Repr, DecidableEq

/-- `memcpy(dest, src, n); dest += n`. -/
def Dest.memcpy (d : Dest) (src : Bytes) : Except Fault Dest :=
  if d.off + src.length ≤ d.buf.length then
    .ok ⟨d.buf.take d.off ++ src ++ d.buf.drop (d.off + src.length), d.off + src.length⟩
  else .error .outOfBounds

/-- `dest += n`, leaving the bytes passed over as they are. -/
def Dest.skip (d : Dest) (n : Nat) : Dest := ⟨d.buf, d.off + n⟩

/-- The write of `w` at the start of a block. -/
def writeFront (buf w : Bytes) : Except Fault Bytes := do
  let d ← (Dest.mk buf 0).memcpy w
  return d.buf

theorem writeFront_of_le {buf w : Bytes} (h : w.length ≤ buf.length) :
    writeFront buf w = .ok (w ++ buf.drop w.length) := by
  simp [writeFront, Dest.memcpy, h]

theorem writeFront_of_lt {buf w : Bytes} (h : buf.length < w.length) :
    writeFront buf w = .error .outOfBounds := by
  simp [writeFront, Dest.memcpy, Nat.not_le.mpr h]

/-- Two writes in a row are one write of the concatenation. -/
theorem Dest.memcpy_append (d : Dest) (a b : Bytes) :
    d.memcpy (a ++ b) = d.memcpy a >>= fun d' => d'.memcpy b := by
  unfold memcpy
  by_cases ha : d.off + a.length ≤ d.buf.length
  · have htake : (d.buf.take d.off).length = d.off := List.length_take_of_le (by omega)
    have hlen : (d.buf.take d.off ++ a ++ d.buf.drop (d.off + a.length)).length
        = d.buf.length := by
      simp only [List.length_append, htake, List.length_drop]; omega
    rw [if_pos ha, ok_bind]
    simp only [hlen, List.length_append, ← Nat.add_assoc]
    by_cases hb : d.off + a.length + b.length ≤ d.buf.length
    · have hpre : (d.buf.take d.off ++ a).length = d.off + a.length := by
        rw [List.length_append, htake]
      have htail : (d.buf.take d.off ++ a ++ d.buf.drop (d.off + a.length)).drop
          (d.off + a.length + b.length) = d.buf.drop (d.off + a.length + b.length) := by
        rw [← List.drop_drop, List.drop_left' hpre, List.drop_drop]
      rw [if_pos hb, if_pos hb, List.take_left' hpre, htail, ← List.append_assoc]
    · rw [if_neg hb, if_neg hb]
  · rw [if_neg ha, error_bind, if_neg (by rw [List.length_append]; omega)]

/-- A loop that writes a record for each element and adds the record's size to a 32-bit
count, run behind a first write: one write of everything, and the sum of the sizes. -/
theorem Dest.foldlM_memcpy {γ : Type} {step : Dest × UInt32 → γ → Except Fault (Dest × UInt32)}
    {record : γ → Bytes} (d : Dest) {xs : List γ}
    (hstep : ∀ d n, ∀ x ∈ xs, step (d, n) x
      = d.memcpy (record x) >>= fun d' => .ok (d', n + UInt32.ofNat (record x).length)) :
    ∀ (a : Bytes) (n : UInt32), (d.memcpy a >>= fun d' => xs.foldlM step (d', n))
      = d.memcpy (a ++ xs.flatMap record) >>= fun d' =>
        .ok (d', n + UInt32.ofNat (xs.flatMap record).length) := by
  induction xs with
  | nil => intro a n; simp
  | cons x xs ih =>
      intro a n
      have hsum : n + UInt32.ofNat (record x).length + UInt32.ofNat (xs.flatMap record).length
          = n + UInt32.ofNat ((x :: xs).flatMap record).length := by
        rw [List.flatMap_cons, List.length_append, UInt32.ofNat_add, UInt32.add_assoc]
      calc (d.memcpy a >>= fun d' => (x :: xs).foldlM step (d', n))
          = d.memcpy (a ++ record x) >>= fun d' =>
              xs.foldlM step (d', n + UInt32.ofNat (record x).length) := by
            simp only [List.foldlM_cons, fun d n => hstep d n x (by simp), bind_assoc, ok_bind,
              Dest.memcpy_append]
        _ = _ := by
            rw [ih (fun d n y hy => hstep d n y (by simp [hy])), List.append_assoc, hsum,
              List.flatMap_cons]

/-- A payload written behind a gap and then a header written into the gap come to one write
of header and payload, whatever the payload's writes returned besides the block. -/
theorem writeFront_headerLast (buf h p : Bytes) :
    (((Dest.mk buf 0).skip h.length).memcpy p >>= fun d => writeFront d.buf h)
      = writeFront buf (h ++ p) := by
  by_cases hfit : h.length + p.length ≤ buf.length
  · have hbuf : ((buf.take h.length ++ p ++ buf.drop (h.length + p.length))).length
        = buf.length := by
      simp only [List.length_append, List.length_take, List.length_drop]; omega
    have hpre : (buf.take h.length).length = h.length := List.length_take_of_le (by omega)
    rw [writeFront_of_le (by simpa using hfit)]
    simp only [Dest.skip, Dest.memcpy, Nat.zero_add, if_pos hfit, ok_bind]
    rw [writeFront_of_le (by rw [hbuf]; omega), List.append_assoc, List.drop_left' hpre]
    simp only [List.length_append, List.append_assoc]
  · rw [writeFront_of_lt (by simp; omega)]
    simp only [Dest.skip, Dest.memcpy, Nat.zero_add, if_neg hfit, error_bind]

end ChatApp.Lib
