import ChatApp.Lib.Wire

set_option autoImplicit false

/-! # Messages cut short

A reader that gets the first bytes of a message, and zeros in place of the others, sees a
message of its own: a varint that is cut short reads as a smaller number, a string as the
string with zeros at its end, and the fields behind the cut are missing. Unless all that was
cut off is zero anyway, the message read is not the one that was written (`Exact`).

The message types enter through what they do with a field: a field adds at most one field to
the serialization, and the last field of a serialization, replaced by what is left of it
after a cut, leaves another message (`exact_of_cut`).
-/

namespace ChatApp.Lib.Wire

/-- All bytes are zero. -/
def Zeros (bs : Bytes) : Prop := ∀ b ∈ bs, b = 0

instance (bs : Bytes) : Decidable (Zeros bs) := inferInstanceAs (Decidable (∀ b ∈ bs, b = 0))

theorem zeros_iff_eq_replicate {bs : Bytes} : Zeros bs ↔ bs = List.replicate bs.length 0 :=
  List.eq_replicate_iff.trans (and_iff_right rfl) |>.symm

/-! ## A field cut short -/

/-- A varint cut short reads as a smaller number, unless it is that of zero. -/
theorem readVarint_cut : ∀ (k n j : Nat) (c r : Bytes) (m : Nat), putVarint k n = c ++ r →
    r ≠ [] → n < 128 ^ (k + 1) → c.length < j →
    ∃ v, readVarint j (c ++ List.replicate (m + 1) 0) = some (v, List.replicate m 0) ∧
      v ≤ n ∧ (v = n → n = 0 ∧ Zeros r) := by
  intro k
  induction k with
  | zero =>
      intro n j c r m hput hr hn hj
      have hn' : n < 128 := by simpa using hn
      have hc : c = [] := by
        have hlen := congrArg List.length hput
        have hpos := List.length_pos_of_ne_nil hr
        simp only [putVarint, List.length_singleton, List.length_append] at hlen
        exact List.length_eq_zero_iff.mp (by omega)
      subst hc
      obtain ⟨j, rfl⟩ : ∃ j', j = j' + 1 := ⟨j - 1, by simp at hj; omega⟩
      refine ⟨0, by simp [readVarint, List.replicate_succ], Nat.zero_le n, ?_⟩
      rintro rfl
      rw [List.nil_append] at hput
      exact ⟨rfl, by simp [← hput, putVarint, Zeros]⟩
  | succ k ih =>
      intro n j c r m hput hr hn hj
      obtain ⟨j, rfl⟩ : ∃ j', j = j' + 1 := ⟨j - 1, by omega⟩
      by_cases hlt : n < 128
      · have hc : c = [] := by
          have hlen := congrArg List.length hput
          have hpos := List.length_pos_of_ne_nil hr
          simp only [putVarint, if_pos hlt, List.length_singleton, List.length_append] at hlen
          exact List.length_eq_zero_iff.mp (by omega)
        subst hc
        refine ⟨0, by simp [readVarint, List.replicate_succ], Nat.zero_le n, ?_⟩
        rintro rfl
        rw [List.nil_append] at hput
        exact ⟨rfl, by simp [← hput, putVarint, Zeros]⟩
      · rw [putVarint, if_neg hlt] at hput
        cases c with
        | nil =>
            refine ⟨0, by simp [readVarint, List.replicate_succ], Nat.zero_le n, ?_⟩
            rintro rfl
            exact absurd (by norm_num) hlt
        | cons b c =>
            rw [List.cons_append, List.cons.injEq] at hput
            obtain ⟨hb, hput⟩ := hput
            have hdiv : n / 128 < 128 ^ (k + 1) := by
              rw [Nat.div_lt_iff_lt_mul (by norm_num)]
              exact lt_of_lt_of_eq hn (pow_succ 128 (k + 1))
            obtain ⟨v, hread, hle, hzeros⟩ := ih (n / 128) j c r m hput hr hdiv
              (by simpa using hj)
            have hbyte : b.toNat = n % 128 + 128 := by
              rw [← hb, UInt8.toNat_ofNat']
              omega
            -- Of two bytes or more the last is not zero.
            have hlt : v < n / 128 := by
              refine lt_of_le_of_ne hle fun heq => ?_
              have hzero := (hzeros heq).1
              omega
            refine ⟨n % 128 + 128 * v, ?_, by omega, by omega⟩
            rw [List.cons_append, readVarint, hread, if_neg (by omega), Option.map_some, hbyte,
              Nat.add_sub_cancel]

/-- What is left of a payload after a cut that took more than zeros: a smaller number, a run
of zeros that is too short, or the same run with zeros at its end. -/
inductive Payload.Cut : Payload → Payload → Prop
  | varint {v v' : Nat} (h : v' < v) : Cut (.varint v) (.varint v')
  | short {bs : Bytes} {n : Nat} (h : n < bs.length) :
      Cut (.lenDelim bs) (.lenDelim (List.replicate n 0))
  | content {c r : Bytes} (h : ¬Zeros r) :
      Cut (.lenDelim (c ++ r)) (.lenDelim (c ++ List.replicate r.length 0))

/-- A payload cut short is read as what is left of it. -/
theorem readScalar_cut {p : Payload} (hp : p.WF) {c r : Bytes} (henc : p.encode = c ++ r)
    (hr : ¬Zeros r) {n : Nat} (hn : r.length ≤ n) :
    ∃ p' n', readScalar p.wireType (c ++ List.replicate n 0) = some (p', List.replicate n' 0) ∧
      p.Cut p' := by
  have hne : r ≠ [] := by
    rintro rfl
    exact hr (List.forall_mem_nil _)
  have hpos := List.length_pos_of_ne_nil hne
  obtain ⟨n, rfl⟩ : ∃ n', n = n' + 1 := ⟨n - 1, by omega⟩
  cases p with
  | varint v =>
      have hv : v < 2 ^ 64 := hp
      have hlen : c.length < 10 := by
        have hle := putVarint_length_le 9 v 9 (lt_trans hv (by norm_num))
        have hsum := congrArg List.length henc
        rw [Payload.encode, encodeVarint, List.length_append] at hsum
        omega
      obtain ⟨v', hread, hle, hzeros⟩ := readVarint_cut 9 v 10 c r n henc hne
        (lt_trans hv (by norm_num)) hlen
      have hlt : v' < v := lt_of_le_of_ne hle fun heq => hr (hzeros heq).2
      refine ⟨.varint v', n, ?_, .varint hlt⟩
      simp only [Payload.wireType, readScalar, hread, Option.map_some,
        Nat.mod_eq_of_lt (lt_of_le_of_lt hle hv)]
  | lenDelim bs =>
      have hbs : bs.length < 128 ^ (4 + 1) := lt_of_lt_of_le hp (by norm_num)
      rcases List.append_eq_append_iff.mp
        (show encodeVarint bs.length ++ bs = c ++ r from henc) with ⟨b, rfl, rfl⟩ | ⟨r', hlen, rfl⟩
      · -- The cut is in the run.
        have hrun : readRun (b ++ r).length (b ++ List.replicate (n + 1) 0)
            = some (b ++ List.replicate r.length 0, List.replicate (n + 1 - r.length) 0) := by
          have hle : (b ++ r).length ≤ (b ++ List.replicate (n + 1) (0 : UInt8)).length := by
            simp only [List.length_append, List.length_replicate]
            omega
          rw [readRun, if_pos hle, List.length_append, List.take_length_add_append,
            List.drop_length_add_append, List.take_replicate, List.drop_replicate,
            Nat.min_eq_left hn]
        refine ⟨.lenDelim (b ++ List.replicate r.length 0), n + 1 - r.length, ?_, .content hr⟩
        simp only [Payload.wireType, readScalar, List.append_assoc,
          readVarint_encodeVarint _ (by norm_num : 4 ≤ 9) hbs, Option.bind_some, hrun,
          Option.map_some]
      · -- The cut is in the length, which reads as a smaller one.
        by_cases hnil : r' = []
        · subst hnil
          rw [List.append_nil] at hlen
          have hrun : readRun bs.length (List.replicate (n + 1) 0)
              = some (List.replicate bs.length 0, List.replicate (n + 1 - bs.length) 0) := by
            rw [readRun, if_pos (by simpa using hn), List.take_replicate, List.drop_replicate,
              Nat.min_eq_left (by simpa using hn)]
          refine ⟨.lenDelim (List.replicate bs.length 0), n + 1 - bs.length, ?_, ?_⟩
          · simp only [Payload.wireType, readScalar, ← hlen,
              readVarint_encodeVarint _ (by norm_num : 4 ≤ 9) hbs, Option.bind_some, hrun,
              Option.map_some]
          · exact .content (c := []) (by simpa using hr)
        · have hshort : c.length < 5 := by
            have hle := putVarint_length_le 9 bs.length 4 hbs
            have hsum := congrArg List.length hlen
            have hpos' := List.length_pos_of_ne_nil hnil
            rw [encodeVarint, List.length_append] at hsum
            omega
          obtain ⟨v, hread, hle, hzeros⟩ := readVarint_cut 9 bs.length 5 c r' n hlen hnil
            (lt_of_lt_of_le hbs (by norm_num)) hshort
          have hlt : v < bs.length := by
            refine lt_of_le_of_ne hle fun heq => hr ?_
            obtain ⟨hzero, hr'⟩ := hzeros heq
            rw [List.length_eq_zero_iff.mp hzero, List.append_nil]
            exact hr'
          have hrun : readRun v (List.replicate n 0)
              = some (List.replicate v 0, List.replicate (n - v) 0) := by
            have hvn : v ≤ n := by
              rw [List.length_append] at hn
              have := List.length_pos_of_ne_nil hnil
              omega
            rw [readRun, if_pos (by simpa using hvn), List.take_replicate, List.drop_replicate,
              Nat.min_eq_left hvn]
          refine ⟨.lenDelim (List.replicate v 0), n - v, ?_, .short hlt⟩
          simp only [Payload.wireType, readScalar, hread, Option.bind_some, hrun, Option.map_some]
  | fixed64 bs => exact absurd hp id
  | group => exact absurd hp id
  | fixed32 bs => exact absurd hp id

/-- A tag of one byte, and what stands behind it. -/
theorem readField_tag {num w : Nat} (hpos : 0 < num) (hnum : num < 16) (hw : w = 0 ∨ w = 2)
    {p : Payload} {rest rest' : Bytes} (h : readScalar w rest = some (p, rest')) :
    readField (encodeVarint (num * 8 + w) ++ rest) = .field ⟨num, p⟩ rest' := by
  have hvar := readVarint_encodeVarint (j := 4) (n := num * 8 + w) rest (by norm_num)
    (by norm_num; omega)
  have hmod : (num * 8 + w) % 2 ^ 32 = num * 8 + w := Nat.mod_eq_of_lt (by omega)
  have hdiv : (num * 8 + w) / 8 = num := by omega
  have htype : (num * 8 + w) % 8 = w := by omega
  simp only [readField, hvar, hmod, hdiv, htype]
  rw [if_neg (by omega), if_neg (by omega), readPayload, if_neg (by omega), h]

/-- **A field cut short behind its tag** is read as a field of the same number that carries
what is left, and only zeros follow it. -/
theorem readField_cut {f : Field} (hwf : f.WF) (hnum : f.num < 16) {c r : Bytes}
    (henc : f.encode = c ++ r) (hc : c ≠ []) (hr : ¬Zeros r) {n : Nat} (hn : r.length ≤ n) :
    ∃ p n', readField (c ++ List.replicate n 0) = .field ⟨f.num, p⟩ (List.replicate n' 0) ∧
      f.payload.Cut p := by
  have hw : f.payload.wireType = 0 ∨ f.payload.wireType = 2 := by
    have hp := hwf.payload
    cases hf : f.payload with
    | varint v => exact .inl rfl
    | lenDelim bs => exact .inr rfl
    | fixed64 bs => rw [hf] at hp; exact absurd hp id
    | group => rw [hf] at hp; exact absurd hp id
    | fixed32 bs => rw [hf] at hp; exact absurd hp id
  have htag : (encodeVarint (f.num * 8 + f.payload.wireType)).length = 1 :=
    encodeVarint_length_of_lt (by omega)
  -- The cut is behind the tag, so the tag is the first byte.
  obtain ⟨c', rfl, hpayload⟩ : ∃ c', c = encodeVarint (f.num * 8 + f.payload.wireType) ++ c' ∧
      f.payload.encode = c' ++ r := by
    rcases List.append_eq_append_iff.mp (show _ ++ _ = c ++ r from henc) with
      ⟨c', hc', hpayload⟩ | ⟨r', htagc, -⟩
    · exact ⟨c', hc', hpayload⟩
    · have hlen := congrArg List.length htagc
      have hpos := List.length_pos_of_ne_nil hc
      rw [htag, List.length_append] at hlen
      have hr' : r' = [] := List.length_eq_zero_iff.mp (by omega)
      subst hr'
      refine ⟨[], by rw [List.append_nil] at htagc ⊢; exact htagc.symm, ?_⟩
      have htagc' : encodeVarint (f.num * 8 + f.payload.wireType) = c := by simpa using htagc
      rw [Field.encode, htagc'] at henc
      exact List.append_cancel_left henc
  obtain ⟨p, n', hread, hcut⟩ := readScalar_cut hwf.payload hpayload hr hn
  refine ⟨p, n', ?_, hcut⟩
  rw [List.append_assoc]
  exact readField_tag hwf.num_pos hnum hw hread

/-! ## A sequence of fields cut short -/

/-- **What is read of some fields cut short**, with zeros behind the cut: not all of them, or
all up to one, and what is left of that one. -/
theorem parse_cut {fs : List Field} (hwf : ∀ f ∈ fs, f.WF) (hnum : ∀ f ∈ fs, f.num < 16)
    {c r : Bytes} (henc : encode fs = c ++ r) (hr : ¬Zeros r) {n : Nat} (hn : r.length ≤ n) :
    (∃ f gs, fs = (parse (c ++ List.replicate n 0)).1 ++ f :: gs) ∨
      ∃ init f gs p, fs = init ++ f :: gs ∧ f.payload.Cut p ∧
        (parse (c ++ List.replicate n 0)).1 = init ++ [⟨f.num, p⟩] := by
  induction fs generalizing c r with
  | nil =>
      obtain ⟨-, rfl⟩ := List.append_eq_nil_iff.mp henc.symm
      exact absurd (List.forall_mem_nil _) hr
  | cons f fs ih =>
      obtain ⟨hf, hfs⟩ := List.forall_mem_cons.mp hwf
      obtain ⟨hfnum, hfsnum⟩ := List.forall_mem_cons.mp hnum
      rw [encode_cons] at henc
      rcases List.append_eq_append_iff.mp henc with ⟨c', rfl, hrest⟩ | ⟨r', hfield, rfl⟩
      · -- The field is there as a whole.
        have hparse : (parse (f.encode ++ c' ++ List.replicate n 0)).1
            = f :: (parse (c' ++ List.replicate n 0)).1 := by
          rw [List.append_assoc, parse_of_field (readField_encode hf _)]
        rw [hparse]
        rcases ih hfs hfsnum hrest hr hn with ⟨g, gs, hgs⟩ | ⟨init, g, gs, p, hgs, hcut, hread⟩
        · refine .inl ⟨g, gs, ?_⟩
          rw [List.cons_append, ← hgs]
        · refine .inr ⟨f :: init, g, gs, p, ?_, hcut, ?_⟩
          · rw [List.cons_append, ← hgs]
          · rw [List.cons_append, hread]
      · rw [List.length_append] at hn
        by_cases hc : c = []
        · subst hc
          refine .inl ⟨f, fs, ?_⟩
          rw [List.nil_append, parse_zeros, List.nil_append]
        · by_cases hzeros : Zeros r'
          · -- The field reads as it was written; those behind it are missing.
            have hparse : (parse (c ++ List.replicate n 0)).1 = [f] := by
              have hpad : c ++ List.replicate n 0
                  = f.encode ++ List.replicate (n - r'.length) 0 := by
                rw [hfield, List.append_assoc, zeros_iff_eq_replicate.mp hzeros,
                  List.length_replicate, List.replicate_append_replicate,
                  Nat.add_sub_cancel' (by omega)]
              rw [hpad, parse_of_field (readField_encode hf _), parse_zeros]
            cases fs with
            | nil =>
                rw [encode_nil, List.append_nil] at hr
                exact absurd hzeros hr
            | cons g gs => exact .inl ⟨g, gs, by rw [hparse]; rfl⟩
          · obtain ⟨p, n', hread, hcut⟩ := readField_cut hf hfnum hfield hc hzeros
              (le_trans (Nat.le_add_right _ _) hn)
            refine .inr ⟨[], f, fs, p, rfl, hcut, ?_⟩
            rw [parse_of_field hread, parse_zeros, List.nil_append]

/-! ## A message cut short -/

namespace Message

variable {σ τ : Type} [Message σ] [Message τ]

/-- **A message that is not read from its first bytes**: with zeros in place of the others,
unless these are zeros, another message is read. -/
def Exact (m : σ) : Prop :=
  ∀ (c r : Bytes) (n : Nat), serialize m = c ++ r → ¬Zeros r → r.length ≤ n →
    (mergeFrom merge empty (c ++ List.replicate n 0)).1 ≠ m

/-- A message type with nothing to write for the value before any field is read, and in which
a field on the wire adds at most one field to what is written. -/
class Lawful (σ : Type) [Message σ] : Prop where
  fields_empty : fields (empty : σ) = []
  fields_merge : ∀ (s : σ) (f : Field), (fields (merge s f).1).length ≤ (fields s).length + 1

theorem fields_mergeFields [Lawful σ] (s : σ) (fs : List Field) :
    (fields (mergeFields merge s fs).1).length ≤ (fields s).length + fs.length := by
  induction fs generalizing s with
  | nil => exact Nat.le_refl _
  | cons f fs ih =>
      have hone := Lawful.fields_merge s f
      rw [mergeFields, List.length_cons]
      split_ifs
      · have hrest := ih (merge s f).1
        omega
      · omega

/-- **How a message type comes to be exact**: the last field of a serialization, replaced by
what is left of it after a cut, leaves another message. -/
theorem exact_of_cut [Lawful σ] {m : σ} (hsound : Sound m) (hnum : ∀ f ∈ fields m, f.num < 16)
    (hlast : ∀ init f p, fields m = init ++ [f] → f.payload.Cut p →
      (merge (mergeFields merge empty init).1 ⟨f.num, p⟩).1 ≠ m) : Exact m := by
  intro c r n henc hr hn heq
  -- The message read has no more fields than were read.
  have hcount : (fields m).length ≤ (parse (c ++ List.replicate n 0)).1.length := by
    have h := fields_mergeFields (empty : σ) (parse (c ++ List.replicate n 0)).1
    rwa [show (mergeFields merge empty (parse (c ++ List.replicate n 0)).1).1 = m from heq,
      Lawful.fields_empty, List.length_nil, Nat.zero_add] at h
  rcases parse_cut hsound.wf hnum henc hr hn with ⟨f, gs, hfields⟩ |
    ⟨init, f, gs, p, hfields, hcut, hparse⟩
  · have hlen := congrArg List.length hfields
    rw [List.length_append, List.length_cons] at hlen
    omega
  · have hlen := congrArg List.length hfields
    rw [hparse] at hcount
    simp only [List.length_append, List.length_cons, List.length_nil] at hlen hcount
    obtain rfl : gs = [] := List.length_eq_zero_iff.mp (by omega)
    have hinit : (mergeFields merge (empty : σ) init).2 = true := by
      by_contra hfail
      have h := mergeFields_append_of_fail [f]
        (Prod.ext rfl (Bool.not_eq_true _ ▸ hfail) :
          mergeFields merge (empty : σ) init = (_, false))
      rw [← hfields, hsound.merge_fields] at h
      cases h
    have hmerge : (mergeFields merge (empty : σ) (init ++ [⟨f.num, p⟩])).1
        = (merge (mergeFields merge empty init).1 ⟨f.num, p⟩).1 := by
      rw [mergeFields_append _ (Prod.ext rfl hinit), mergeFields]
      split_ifs <;> rfl
    refine hlast init f p hfields hcut ?_
    rw [← hmerge, ← hparse]
    exact heq

/-- What is left of a field after a cut leaves another message than `m`, whatever was read
before it. -/
def Told (m : σ) (f : Field) : Prop :=
  f.num < 16 ∧ ∀ s p, f.payload.Cut p → (merge s ⟨f.num, p⟩).1 ≠ m

/-- A message of which every field tells. -/
theorem exact_of_told [Lawful σ] {m : σ} (hsound : Sound m) (h : ∀ f ∈ fields m, Told m f) :
    Exact m := by
  refine exact_of_cut hsound (fun f hf => (h f hf).1) ?_
  intro init f p hfields hcut
  have hf : f ∈ fields m := hfields ▸ List.mem_append_right init List.mem_cons_self
  exact (h f hf).2 _ p hcut

/-- What is left of a message member is another message. -/
theorem Exact.of_cut [Lawful τ] {x : τ} (h : Exact x) {p : Payload}
    (hcut : (Payload.lenDelim (serialize x)).Cut p) :
    ∃ bs, p = .lenDelim bs ∧ (mergeFrom merge empty bs).1 ≠ x := by
  generalize hbs : serialize x = bs at hcut
  cases hcut with
  | short hlt =>
      refine ⟨_, rfl, ?_⟩
      rintro rfl
      -- Nothing is read from zeros, and nothing is written for nothing.
      rename_i k
      have hempty : (mergeFrom merge (empty : τ) (List.replicate k 0)).1 = empty := by
        rw [mergeFrom, parse_zeros]
        rfl
      rw [hempty, serialize, Lawful.fields_empty, encode_nil] at hbs
      rw [← hbs] at hlt
      exact absurd hlt (Nat.not_lt_zero _)
  | content hr => exact ⟨_, rfl, h _ _ _ hbs hr (Nat.le_refl _)⟩

end Message

/-- What is left of a number. -/
theorem Payload.Cut.of_varint {v : Nat} {p : Payload} (h : (Payload.varint v).Cut p) :
    ∃ v', p = .varint v' ∧ v' < v := by
  cases h with
  | varint hlt => exact ⟨_, rfl, hlt⟩

/-- What is left of a string is another string. -/
theorem Payload.Cut.of_lenDelim {bs : Bytes} {p : Payload} (h : (Payload.lenDelim bs).Cut p) :
    ∃ bs', p = .lenDelim bs' ∧ bs' ≠ bs := by
  cases h with
  | short hlt =>
      refine ⟨_, rfl, ?_⟩
      rintro rfl
      simp at hlt
  | content hr =>
      refine ⟨_, rfl, fun heq => hr ?_⟩
      rw [zeros_iff_eq_replicate]
      exact (List.append_cancel_left heq).symm

end ChatApp.Lib.Wire
