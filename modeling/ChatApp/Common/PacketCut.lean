import ChatApp.Common.Packet
import ChatApp.Lib.Truncate

set_option autoImplicit false

/-! # Packets cut short

No packet is read from its first bytes, with zeros in place of the others, unless these are
zeros (`Packet.exact`). For each kind of member: what is left of its field sets it to
something else.
-/

namespace ChatApp.Mcc

open Lib Lib.Wire Lib.Wire.Message

/-! ## Members -/

section Members

variable {σ τ : Type} [Message σ] [Message τ] {m : σ} {num : Nat} {f : Field}

/-- What is left of a number sets the member to another number. -/
theorem num_told (get : σ → Option UInt32) (hnum : num < 16)
    (hset : ∀ s n, get (merge s ⟨num, .varint n⟩).1 = num32 n) :
    ∀ f ∈ ((get m).map (numField num)).toList, Told m f := by
  refine forall_optional fun v hv => ⟨hnum, fun s p hcut heq => ?_⟩
  obtain ⟨n, rfl, hlt⟩ := Payload.Cut.of_varint hcut
  have hsome : num32 n = some v := by
    rw [← hset s n, ← hv]
    exact congrArg get heq
  have hn : (UInt32.ofNat n).toNat = v.toNat := congrArg UInt32.toNat (Option.some.inj hsome)
  have hv := v.toNat_lt
  rw [UInt32.toNat_ofNat', Nat.mod_eq_of_lt (by omega)] at hn
  omega

/-- What is left of a string sets the member to another string. -/
theorem str_told (get : σ → Option Bytes) (hnum : num < 16)
    (hset : ∀ s bs, get (merge s ⟨num, .lenDelim bs⟩).1 = some bs) :
    ∀ f ∈ ((get m).map (strField num)).toList, Told m f := by
  refine forall_optional fun t ht => ⟨hnum, fun s p hcut heq => ?_⟩
  obtain ⟨bs, rfl, hne⟩ := Payload.Cut.of_lenDelim hcut
  have hsome : some bs = some t := by
    rw [← hset s bs, ← ht]
    exact congrArg get heq
  exact hne (Option.some.inj hsome)

/-- What is left of the last element of a repeated member is another element; in front of the
repeated member every field tells. -/
theorem exact_of_repeated [Lawful σ] [Lawful τ] (get : σ → List τ) {front : List Field}
    (hsound : Sound m) (hfields : fields m = front ++ (get m).map (toField num))
    (hfront : ∀ f ∈ front, Told m f) (hnum : num < 16)
    (hset : ∀ s bs, get (merge s ⟨num, .lenDelim bs⟩).1
      = get s ++ [(mergeFrom merge empty bs).1])
    (hexact : ∀ x ∈ get m, Exact x) : Exact m := by
  refine exact_of_cut hsound ?_ ?_
  · rw [hfields, List.forall_mem_append]
    refine ⟨fun f hf => (hfront f hf).1, fun f hf => ?_⟩
    obtain ⟨x, -, rfl⟩ := List.mem_map.mp hf
    exact hnum
  · intro init f p hlast hcut heq
    rw [hfields] at hlast
    rcases List.eq_nil_or_concat (get m) with hnil | ⟨xs, x, hxs⟩
    -- Without elements the last field is one of those in front.
    · rw [hnil, List.map_nil, List.append_nil] at hlast
      have hf : f ∈ front := hlast ▸ List.mem_append_right init List.mem_cons_self
      exact (hfront f hf).2 _ p hcut heq
    · rw [List.concat_eq_append] at hxs
      rw [hxs, List.map_append, ← List.append_assoc] at hlast
      obtain rfl : toField num x = f := List.singleton_inj.mp (List.append_inj' hlast rfl).2
      obtain ⟨bs, rfl, hne⟩ := (hexact x (by simp [hxs])).of_cut hcut
      have hget := congrArg get heq
      rw [show (toField num x).num = num from rfl, hset, hxs] at hget
      exact hne (List.singleton_inj.mp (List.append_inj' hget rfl).2)

/-- What is left of the last member of a message is another message: the member was absent
before, or the field would not have added one. -/
theorem member_cut [Lawful σ] [Lawful τ] (get : σ → Option τ) (put : σ → τ → σ)
    (hmerge : ∀ s p, merge s ⟨num, p⟩ = onMember get put s p)
    (hget : ∀ s x, get (put s x) = some x)
    (hlen : ∀ s x, get s ≠ none → (fields (put s x)).length = (fields s).length)
    {x : τ} (hx : get m = some x) (hexact : Exact x) {init : List Field} {p : Payload}
    (hfields : fields m = init ++ [toField num x]) (hcut : (toField num x).payload.Cut p) :
    (merge (mergeFields merge empty init).1 ⟨num, p⟩).1 ≠ m := by
  intro heq
  obtain ⟨bs, rfl, hne⟩ := hexact.of_cut hcut
  have hput : (merge (mergeFields merge (empty : σ) init).1 ⟨num, .lenDelim bs⟩).1
      = put (mergeFields merge empty init).1 (mergeFrom merge
        ((get (mergeFields merge (empty : σ) init).1).getD empty) bs).1 := by
    rw [hmerge]
    rfl
  rw [hput] at heq
  -- If the fields before had set the member already, the message would have one field fewer.
  have habsent : get (mergeFields merge (empty : σ) init).1 = none := by
    by_contra hpresent
    have hcount := fields_mergeFields (empty : σ) init
    have hsame := hlen _ (mergeFrom merge
      ((get (mergeFields merge (empty : σ) init).1).getD empty) bs).1 hpresent
    rw [heq, hfields, List.length_append, List.length_singleton] at hsame
    rw [Lawful.fields_empty, List.length_nil] at hcount
    omega
  have hset := congrArg get heq
  rw [hget, habsent, Option.getD_none, hx] at hset
  exact hne (Option.some.inj hset)

theorem length_optional {α : Type} (o : Option α) (mk : α → Field) :
    (o.map mk).toList.length = o.toList.length := by
  cases o <;> rfl

end Members

/-! ## The messages inside a packet -/

instance : Lawful OnlineUser where
  fields_empty := rfl
  fields_merge s f := by
    simp only [fields, merge, List.length_append, length_optional]
    split <;> cases f.payload <;> (simp [onVarint, onString, num32]; try omega)

instance : Lawful UserMessage where
  fields_empty := rfl
  fields_merge s f := by
    simp only [fields, merge, List.length_append, length_optional]
    split <;> cases f.payload <;> (simp [onVarint, onString, num32]; try omega)

instance : Lawful Header where
  fields_empty := rfl
  fields_merge s f := by
    simp only [fields, merge, length_optional]
    split <;> cases f.payload <;> simp [onVarint]

instance : Lawful RequestRegister where
  fields_empty := rfl
  fields_merge s f := by
    simp only [fields, merge, length_optional]
    split <;> cases f.payload <;> simp [onString]

instance : Lawful RequestUsers where
  fields_empty := rfl
  fields_merge s f := by
    simp only [fields, merge, length_optional]
    split <;> cases f.payload <;> simp [onVarint, num32]

instance : Lawful RequestSend where
  fields_empty := rfl
  fields_merge s f := by
    simp only [fields, merge, List.length_append, length_optional]
    split <;> cases f.payload <;> (simp [onVarint, onString, num32]; try omega)

instance : Lawful RequestRecv where
  fields_empty := rfl
  fields_merge s f := by
    simp only [fields, merge, length_optional]
    split <;> cases f.payload <;> simp [onVarint, num32]

instance : Lawful RespRegister where
  fields_empty := rfl
  fields_merge s f := by
    simp only [fields, merge, List.length_append, length_optional]
    split <;> cases f.payload <;> (simp [onVarint, num32]; try omega)

instance : Lawful RespUsers where
  fields_empty := rfl
  fields_merge s f := by
    simp only [fields, merge, List.length_append, length_optional, List.length_map]
    split <;> cases f.payload <;> (simp [onVarint, onMessage, num32]; try omega)

instance : Lawful RespSend where
  fields_empty := rfl
  fields_merge s f := by
    simp only [fields, merge, length_optional]
    split <;> cases f.payload <;> simp [onVarint, num32]

instance : Lawful RespRecv where
  fields_empty := rfl
  fields_merge s f := by
    simp only [fields, merge, List.length_append, length_optional, List.length_map]
    split <;> cases f.payload <;> (simp [onVarint, onMessage, num32]; try omega)

theorem PacketType.toNat_ofNat (n : Nat) : (PacketType.ofNat n).toNat = n % 2 ^ 32 := by
  have hlt : n % 2 ^ 32 < 2 ^ 32 := Nat.mod_lt n (by norm_num)
  unfold ofNat
  split <;> simp_all [toNat]

theorem Header.exact {m : Header} (hsound : Sound m) : Exact m := by
  refine exact_of_told hsound
    (forall_optional fun t ht => ⟨by norm_num, fun s p hcut heq => ?_⟩)
  obtain ⟨n, rfl, hlt⟩ := Payload.Cut.of_varint hcut
  have htype : some (PacketType.ofNat n) = some t := (congrArg Header.packetType heq).trans ht
  have htoNat := congrArg PacketType.toNat (Option.some.inj htype)
  rw [PacketType.toNat_ofNat] at htoNat
  have hle := Nat.mod_le n (2 ^ 32)
  omega

theorem RequestRegister.exact {m : RequestRegister} (hsound : Sound m) : Exact m :=
  exact_of_told hsound (str_told RequestRegister.username (by norm_num) fun _ _ => rfl)

theorem RequestUsers.exact {m : RequestUsers} (hsound : Sound m) : Exact m :=
  exact_of_told hsound (num_told RequestUsers.requestorId (by norm_num) fun _ _ => rfl)

theorem RequestSend.exact {m : RequestSend} (hsound : Sound m) : Exact m :=
  exact_of_told hsound (List.forall_mem_append.mpr ⟨List.forall_mem_append.mpr
    ⟨num_told RequestSend.sourceId (by norm_num) fun _ _ => rfl,
      num_told RequestSend.targetId (by norm_num) fun _ _ => rfl⟩,
    str_told RequestSend.message (by norm_num) fun _ _ => rfl⟩)

theorem RequestRecv.exact {m : RequestRecv} (hsound : Sound m) : Exact m :=
  exact_of_told hsound (num_told RequestRecv.requestorId (by norm_num) fun _ _ => rfl)

theorem RespRegister.exact {m : RespRegister} (hsound : Sound m) : Exact m :=
  exact_of_told hsound (List.forall_mem_append.mpr
    ⟨num_told RespRegister.respValue (by norm_num) fun _ _ => rfl,
      num_told RespRegister.assignedId (by norm_num) fun _ _ => rfl⟩)

theorem RespSend.exact {m : RespSend} (hsound : Sound m) : Exact m :=
  exact_of_told hsound (num_told RespSend.respValue (by norm_num) fun _ _ => rfl)

theorem OnlineUser.exact {m : OnlineUser} (hsound : Sound m) : Exact m :=
  exact_of_told hsound (List.forall_mem_append.mpr
    ⟨num_told OnlineUser.userId (by norm_num) fun _ _ => rfl,
      str_told OnlineUser.username (by norm_num) fun _ _ => rfl⟩)

theorem UserMessage.exact {m : UserMessage} (hsound : Sound m) : Exact m :=
  exact_of_told hsound (List.forall_mem_append.mpr
    ⟨num_told UserMessage.userId (by norm_num) fun _ _ => rfl,
      str_told UserMessage.message (by norm_num) fun _ _ => rfl⟩)

theorem RespUsers.exact {m : RespUsers} (hsound : Sound m)
    (hs : ∀ u ∈ m.onlineUsers, Sound u) : Exact m :=
  exact_of_repeated RespUsers.onlineUsers hsound rfl
    (num_told RespUsers.respValue (by norm_num) fun _ _ => rfl) (by norm_num) (fun _ _ => rfl)
    (fun u hu => OnlineUser.exact (hs u hu))

theorem RespRecv.exact {m : RespRecv} (hsound : Sound m)
    (hs : ∀ u ∈ m.messages, Sound u) : Exact m :=
  exact_of_repeated RespRecv.messages hsound rfl
    (num_told RespRecv.respValue (by norm_num) fun _ _ => rfl) (by norm_num) (fun _ _ => rfl)
    (fun u hu => UserMessage.exact (hs u hu))

/-! ## The packet -/

theorem Packet.fields_length (p : Packet) : (fields p).length
    = p.hdr.toList.length + p.reqReg.toList.length + p.reqUsers.toList.length
      + p.reqSend.toList.length + p.reqRecv.toList.length + p.respReg.toList.length
      + p.respUsers.toList.length + p.respSend.toList.length + p.respRecv.toList.length := by
  simp only [fields, List.length_append, length_optional]

/-- A field on the wire sets one member, or none. -/
theorem onMember_fst {σ τ : Type} [Message τ] (get : σ → Option τ) (put : σ → τ → σ) (s : σ)
    (p : Payload) : (onMember get put s p).1 = s ∨ ∃ x, (onMember get put s p).1 = put s x := by
  cases p with
  | lenDelim bs => exact .inr ⟨_, rfl⟩
  | varint n => exact .inl rfl
  | fixed64 bs => exact .inl rfl
  | group => exact .inl rfl
  | fixed32 bs => exact .inl rfl

/-- A member set adds at most one field, and none if the member was present. -/
theorem Packet.fields_onMember {τ : Type} [Message τ] (get : Packet → Option τ)
    (put : Packet → τ → Packet) (s : Packet) (p : Payload)
    (hput : ∀ x, (fields (put s x)).length ≤ (fields s).length + 1) :
    (fields (onMember get put s p).1).length ≤ (fields s).length + 1 := by
  rcases onMember_fst get put s p with h | ⟨x, h⟩
  · rw [h]
    exact Nat.le_succ _
  · rw [h]
    exact hput x

theorem Packet.fields_merge (s : Packet) (f : Field) :
    (fields (merge s f).1).length ≤ (fields s).length + 1 := by
  simp only [merge]
  split
  case h_10 => exact Nat.le_succ _
  all_goals
    refine Packet.fields_onMember _ _ s f.payload fun x => ?_
    rw [Packet.fields_length, Packet.fields_length]
    simp only [Option.toList_some, List.length_singleton]
    omega

instance : Lawful Packet where
  fields_empty := rfl
  fields_merge := Packet.fields_merge

/-- A member set that was present adds no field. -/
theorem toList_length_of_ne_none {α : Type} {o : Option α} (h : o ≠ none) (x : α) :
    (some x).toList.length = o.toList.length := by
  obtain ⟨y, rfl⟩ := Option.ne_none_iff_exists'.mp h
  rfl

/-- **No packet is read from its first bytes.** -/
theorem Packet.exact {p : Packet} (h : p.WellFormed) (hsize : byteSizeLong p < 2 ^ 35) :
    Exact p := by
  obtain ⟨m1, m2, m3, m4, m5, m6, m7, m8, m9⟩ := p.mem_fields
  have small {τ : Type} [Message τ] {num : Nat} {x : τ} (hx : toField num x ∈ fields p) :
      byteSizeLong x < 2 ^ 35 := lt_of_le_of_lt (toField_size_le hx) hsize
  -- Every tag is one byte.
  have hnum : ∀ f ∈ fields p, f.num < 16 := by
    simp only [fields, List.forall_mem_append]
    refine ⟨⟨⟨⟨⟨⟨⟨⟨?_, ?_⟩, ?_⟩, ?_⟩, ?_⟩, ?_⟩, ?_⟩, ?_⟩, ?_⟩ <;>
      exact forall_optional fun x _ => by simp [toField]
  refine exact_of_cut (Packet.sound h hsize) hnum ?_
  intro init f q hfields hcut
  have hf : f ∈ fields p := hfields ▸ List.mem_append_right init List.mem_cons_self
  simp only [fields, List.mem_append, or_assoc] at hf
  -- The last field belongs to one of the nine members, and is cut inside that member.
  rcases hf with hf | hf | hf | hf | hf | hf | hf | hf | hf <;>
    obtain ⟨x, hx, rfl⟩ := Option.map_eq_some_iff.mp (Option.mem_toList.mp hf)
  · exact member_cut Packet.hdr (fun p x => { p with hdr := some x }) (fun _ _ => rfl)
      (fun _ _ => rfl) (fun s x hs => by
        rw [Packet.fields_length, Packet.fields_length, toList_length_of_ne_none hs])
      hx (Header.exact (Header.sound (h.hdr x hx))) hfields hcut
  · exact member_cut Packet.reqReg (fun p x => { p with reqReg := some x }) (fun _ _ => rfl)
      (fun _ _ => rfl) (fun s x hs => by
        rw [Packet.fields_length, Packet.fields_length, toList_length_of_ne_none hs])
      hx (RequestRegister.exact (RequestRegister.sound (h.reqReg x hx) (small (m2 x hx))))
        hfields hcut
  · exact member_cut Packet.reqUsers (fun p x => { p with reqUsers := some x }) (fun _ _ => rfl)
      (fun _ _ => rfl) (fun s x hs => by
        rw [Packet.fields_length, Packet.fields_length, toList_length_of_ne_none hs])
      hx (RequestUsers.exact (RequestUsers.sound (small (m3 x hx)))) hfields hcut
  · exact member_cut Packet.reqSend (fun p x => { p with reqSend := some x }) (fun _ _ => rfl)
      (fun _ _ => rfl) (fun s x hs => by
        rw [Packet.fields_length, Packet.fields_length, toList_length_of_ne_none hs])
      hx (RequestSend.exact (RequestSend.sound (h.reqSend x hx) (small (m4 x hx)))) hfields hcut
  · exact member_cut Packet.reqRecv (fun p x => { p with reqRecv := some x }) (fun _ _ => rfl)
      (fun _ _ => rfl) (fun s x hs => by
        rw [Packet.fields_length, Packet.fields_length, toList_length_of_ne_none hs])
      hx (RequestRecv.exact (RequestRecv.sound (small (m5 x hx)))) hfields hcut
  · exact member_cut Packet.respReg (fun p x => { p with respReg := some x }) (fun _ _ => rfl)
      (fun _ _ => rfl) (fun s x hs => by
        rw [Packet.fields_length, Packet.fields_length, toList_length_of_ne_none hs])
      hx (RespRegister.exact (RespRegister.sound (small (m6 x hx)))) hfields hcut
  · have hsound := RespUsers.sound (h.respUsers x hx) (small (m7 x hx))
    have hus (u : OnlineUser) (hu : u ∈ x.onlineUsers) : Sound u := by
      have hmem : toField 2 u ∈ fields x := List.mem_append_right _ (List.mem_map.mpr ⟨u, hu, rfl⟩)
      exact OnlineUser.sound (h.respUsers x hx u hu)
        (lt_of_le_of_lt (toField_size_le hmem) (small (m7 x hx)))
    exact member_cut Packet.respUsers (fun p x => { p with respUsers := some x }) (fun _ _ => rfl)
      (fun _ _ => rfl) (fun s x hs => by
        rw [Packet.fields_length, Packet.fields_length, toList_length_of_ne_none hs])
      hx (RespUsers.exact hsound hus) hfields hcut
  · exact member_cut Packet.respSend (fun p x => { p with respSend := some x }) (fun _ _ => rfl)
      (fun _ _ => rfl) (fun s x hs => by
        rw [Packet.fields_length, Packet.fields_length, toList_length_of_ne_none hs])
      hx (RespSend.exact (RespSend.sound (small (m8 x hx)))) hfields hcut
  · have hsound := RespRecv.sound (h.respRecv x hx) (small (m9 x hx))
    have hmsgs (u : UserMessage) (hu : u ∈ x.messages) : Sound u := by
      have hmem : toField 2 u ∈ fields x := List.mem_append_right _ (List.mem_map.mpr ⟨u, hu, rfl⟩)
      exact UserMessage.sound (h.respRecv x hx u hu)
        (lt_of_le_of_lt (toField_size_le hmem) (small (m9 x hx)))
    exact member_cut Packet.respRecv (fun p x => { p with respRecv := some x }) (fun _ _ => rfl)
      (fun _ _ => rfl) (fun s x hs => by
        rw [Packet.fields_length, Packet.fields_length, toList_length_of_ne_none hs])
      hx (RespRecv.exact hsound hmsgs) hfields hcut

end ChatApp.Mcc
