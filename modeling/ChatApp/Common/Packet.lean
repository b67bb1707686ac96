import ChatApp.Lib.Utf8
import ChatApp.Lib.Wire

set_option autoImplicit false

/-! # The protobuf packets (`common/packet.proto`)

One structure for each message of the schema, with what a field on the wire does to it
(`merge`) and the fields it is written as (`fields`). Every member is `optional`, so a
structure keeps for each member whether it is present. The accessors read an absent member
as zero, an empty string or an empty message. A string member is stored before its encoding
is checked, so a string that is not UTF-8 makes the parse fail but stays in the message.

`Packet.sound` is the round trip: a packet whose strings are UTF-8 and whose size a length
prefix can express is read back as it was written.
-/

namespace ChatApp.Mcc

open Lib Lib.Wire

/-- `Header.PacketType`. The enumeration is open: any other 32-bit value is kept as it is. -/
inductive PacketType
  | requestRegister
  | requestUsers
  | requestSend
  | requestRecv
  | respRegister
  | respUsers
  | respSend
  | respRecv
  | unrecognized (n : UInt32)
  deriving Repr, DecidableEq

def PacketType.ofNat (n : Nat) : PacketType :=
  match n % 2 ^ 32 with
  | 0 => .requestRegister
  | 1 => .requestUsers
  | 2 => .requestSend
  | 3 => .requestRecv
  | 4 => .respRegister
  | 5 => .respUsers
  | 6 => .respSend
  | 7 => .respRecv
  | k => .unrecognized (UInt32.ofNat k)

def PacketType.toNat : PacketType → Nat
  | .requestRegister => 0
  | .requestUsers => 1
  | .requestSend => 2
  | .requestRecv => 3
  | .respRegister => 4
  | .respUsers => 5
  | .respSend => 6
  | .respRecv => 7
  | .unrecognized n => n.toNat

/-! ## Members that are numbers and strings -/

/-- The field of a number. -/
def numField (num : Nat) (v : UInt32) : Field := ⟨num, .varint v.toNat⟩

/-- The field of a string. -/
def strField (num : Nat) (s : Bytes) : Field := ⟨num, .lenDelim s⟩

theorem numField_plain {num : Nat} (h : 0 < num) (h' : num < 2 ^ 29) (v : UInt32) :
    (numField num v).Plain :=
  ⟨h, h', lt_trans v.toNat_lt (by norm_num)⟩

theorem strField_plain {num : Nat} (h : 0 < num) (h' : num < 2 ^ 29) (s : Bytes) :
    (strField num s).Plain :=
  ⟨h, h', trivial⟩

theorem toField_plain {σ : Type} [Message σ] {num : Nat} (h : 0 < num) (h' : num < 2 ^ 29)
    (m : σ) : (Message.toField num m).Plain :=
  ⟨h, h', trivial⟩

/-- What a number field stores. -/
def num32 (n : Nat) : Option UInt32 := some (UInt32.ofNat n)

@[simp] theorem num32_toNat (v : UInt32) : num32 v.toNat = some v := by
  simp [num32]

/-! ## The messages -/

structure OnlineUser where
  userId : Option UInt32 := none
  username : Option Bytes := none
  deriving Repr, DecidableEq

structure UserMessage where
  userId : Option UInt32 := none
  message : Option Bytes := none
  deriving Repr, DecidableEq

structure Header where
  packetType : Option PacketType := none
  deriving Repr, DecidableEq

structure RequestRegister where
  username : Option Bytes := none
  deriving Repr, DecidableEq

structure RequestUsers where
  requestorId : Option UInt32 := none
  deriving Repr, DecidableEq

structure RequestSend where
  sourceId : Option UInt32 := none
  targetId : Option UInt32 := none
  message : Option Bytes := none
  deriving Repr, DecidableEq

structure RequestRecv where
  requestorId : Option UInt32 := none
  deriving Repr, DecidableEq

structure RespRegister where
  respValue : Option UInt32 := none
  assignedId : Option UInt32 := none
  deriving Repr, DecidableEq

structure RespUsers where
  respValue : Option UInt32 := none
  onlineUsers : List OnlineUser := []
  deriving Repr, DecidableEq

structure RespSend where
  respValue : Option UInt32 := none
  deriving Repr, DecidableEq

structure RespRecv where
  respValue : Option UInt32 := none
  messages : List UserMessage := []
  deriving Repr, DecidableEq

structure Packet where
  hdr : Option Header := none
  reqReg : Option RequestRegister := none
  reqUsers : Option RequestUsers := none
  reqSend : Option RequestSend := none
  reqRecv : Option RequestRecv := none
  respReg : Option RespRegister := none
  respUsers : Option RespUsers := none
  respSend : Option RespSend := none
  respRecv : Option RespRecv := none
  deriving Repr, DecidableEq

/-! ## Reading and writing

The cases of `merge` are the field numbers of the schema. -/

instance : Message OnlineUser where
  empty := {}
  merge m f :=
    match f.num with
    | 1 => onVarint (fun m n => { m with userId := num32 n }) m f.payload
    | 2 => onString Utf8.valid (fun m s => { m with username := some s }) m f.payload
    | _ => (m, true)
  fields m := (m.userId.map (numField 1)).toList ++ (m.username.map (strField 2)).toList

instance : Message UserMessage where
  empty := {}
  merge m f :=
    match f.num with
    | 1 => onVarint (fun m n => { m with userId := num32 n }) m f.payload
    | 2 => onString Utf8.valid (fun m s => { m with message := some s }) m f.payload
    | _ => (m, true)
  fields m := (m.userId.map (numField 1)).toList ++ (m.message.map (strField 2)).toList

instance : Message Header where
  empty := {}
  merge m f :=
    match f.num with
    | 1 => onVarint (fun m n => { m with packetType := some (.ofNat n) }) m f.payload
    | _ => (m, true)
  fields m := (m.packetType.map (fun t => ⟨1, .varint t.toNat⟩)).toList

instance : Message RequestRegister where
  empty := {}
  merge m f :=
    match f.num with
    | 1 => onString Utf8.valid (fun m s => { m with username := some s }) m f.payload
    | _ => (m, true)
  fields m := (m.username.map (strField 1)).toList

instance : Message RequestUsers where
  empty := {}
  merge m f :=
    match f.num with
    | 1 => onVarint (fun m n => { m with requestorId := num32 n }) m f.payload
    | _ => (m, true)
  fields m := (m.requestorId.map (numField 1)).toList

instance : Message RequestSend where
  empty := {}
  merge m f :=
    match f.num with
    | 1 => onVarint (fun m n => { m with sourceId := num32 n }) m f.payload
    | 2 => onVarint (fun m n => { m with targetId := num32 n }) m f.payload
    | 3 => onString Utf8.valid (fun m s => { m with message := some s }) m f.payload
    | _ => (m, true)
  fields m := (m.sourceId.map (numField 1)).toList ++ (m.targetId.map (numField 2)).toList
    ++ (m.message.map (strField 3)).toList

instance : Message RequestRecv where
  empty := {}
  merge m f :=
    match f.num with
    | 1 => onVarint (fun m n => { m with requestorId := num32 n }) m f.payload
    | _ => (m, true)
  fields m := (m.requestorId.map (numField 1)).toList

instance : Message RespRegister where
  empty := {}
  merge m f :=
    match f.num with
    | 1 => onVarint (fun m n => { m with respValue := num32 n }) m f.payload
    | 2 => onVarint (fun m n => { m with assignedId := num32 n }) m f.payload
    | _ => (m, true)
  fields m := (m.respValue.map (numField 1)).toList ++ (m.assignedId.map (numField 2)).toList

instance : Message RespUsers where
  empty := {}
  merge m f :=
    match f.num with
    | 1 => onVarint (fun m n => { m with respValue := num32 n }) m f.payload
    | 2 => onMessage Message.merge (fun _ => Message.empty)
        (fun m (u : OnlineUser) => { m with onlineUsers := m.onlineUsers ++ [u] }) m f.payload
    | _ => (m, true)
  fields m := (m.respValue.map (numField 1)).toList ++ m.onlineUsers.map (Message.toField 2)

instance : Message RespSend where
  empty := {}
  merge m f :=
    match f.num with
    | 1 => onVarint (fun m n => { m with respValue := num32 n }) m f.payload
    | _ => (m, true)
  fields m := (m.respValue.map (numField 1)).toList

instance : Message RespRecv where
  empty := {}
  merge m f :=
    match f.num with
    | 1 => onVarint (fun m n => { m with respValue := num32 n }) m f.payload
    | 2 => onMessage Message.merge (fun _ => Message.empty)
        (fun m (u : UserMessage) => { m with messages := m.messages ++ [u] }) m f.payload
    | _ => (m, true)
  fields m := (m.respValue.map (numField 1)).toList ++ m.messages.map (Message.toField 2)

/-- A singular message member: a further occurrence is merged into the one there. -/
def onMember {σ τ : Type} [Message τ] (get : σ → Option τ) (put : σ → τ → σ) (s : σ)
    (p : Payload) : σ × Bool :=
  onMessage Message.merge (fun s => (get s).getD Message.empty) put s p

instance : Message Packet where
  empty := {}
  merge m f :=
    match f.num with
    | 1 => onMember Packet.hdr (fun m x => { m with hdr := some x }) m f.payload
    | 2 => onMember Packet.reqReg (fun m x => { m with reqReg := some x }) m f.payload
    | 3 => onMember Packet.reqUsers (fun m x => { m with reqUsers := some x }) m f.payload
    | 4 => onMember Packet.reqSend (fun m x => { m with reqSend := some x }) m f.payload
    | 5 => onMember Packet.reqRecv (fun m x => { m with reqRecv := some x }) m f.payload
    | 6 => onMember Packet.respReg (fun m x => { m with respReg := some x }) m f.payload
    | 7 => onMember Packet.respUsers (fun m x => { m with respUsers := some x }) m f.payload
    | 8 => onMember Packet.respSend (fun m x => { m with respSend := some x }) m f.payload
    | 9 => onMember Packet.respRecv (fun m x => { m with respRecv := some x }) m f.payload
    | _ => (m, true)
  fields m := (m.hdr.map (Message.toField 1)).toList
    ++ (m.reqReg.map (Message.toField 2)).toList
    ++ (m.reqUsers.map (Message.toField 3)).toList
    ++ (m.reqSend.map (Message.toField 4)).toList
    ++ (m.reqRecv.map (Message.toField 5)).toList
    ++ (m.respReg.map (Message.toField 6)).toList
    ++ (m.respUsers.map (Message.toField 7)).toList
    ++ (m.respSend.map (Message.toField 8)).toList
    ++ (m.respRecv.map (Message.toField 9)).toList

/-- No field of a packet runs over the bytes, nor does one inside a member. -/
def Packet.framed : Bytes → Bool :=
  Wire.framed fun num content =>
    match num with
    | 7 | 9 => Wire.framed (fun num content => num != 2 || Wire.framed (fun _ _ => true) content)
        content
    | 1 | 2 | 3 | 4 | 5 | 6 | 8 => Wire.framed (fun _ _ => true) content
    | _ => true

/-! ## The round trip

A message is read back as written if its strings are UTF-8 (`Utf8`) and its size is one a
length prefix can express. -/

open Message

/-- An enumerator, or a number that is none. -/
def PacketType.Canonical (t : PacketType) : Prop := PacketType.ofNat t.toNat = t

instance (t : PacketType) : Decidable t.Canonical := inferInstanceAs (Decidable (_ = _))

theorem PacketType.toNat_lt (t : PacketType) : t.toNat < 2 ^ 64 := by
  cases t with
  | unrecognized n => exact lt_trans n.toNat_lt (by norm_num)
  | _ => exact by decide

/-- A string member that is absent or UTF-8. -/
def Utf8Opt (s : Option Bytes) : Prop := ∀ bs, s = some bs → Utf8.valid bs = true

section Members

variable {σ τ : Type} [Message τ] {upd : σ → Field → σ × Bool} {s : σ}

/-- The fields of a number member set it. -/
theorem mergeFields_num (put : σ → Option UInt32 → σ) (num : Nat) (o : Option UInt32)
    (hnone : put s none = s)
    (hupd : ∀ p, upd s ⟨num, p⟩ = onVarint (fun m n => put m (num32 n)) s p) :
    mergeFields upd s (o.map (numField num)).toList = (put s o, true) := by
  refine mergeFields_optional (by rintro rfl; exact hnone) ?_
  rintro v rfl
  rw [numField, hupd, onVarint, num32_toNat]

/-- The fields of a string member set it, if the string is UTF-8. -/
theorem mergeFields_str (put : σ → Option Bytes → σ) (num : Nat) {o : Option Bytes}
    (ho : Utf8Opt o) (hnone : put s none = s)
    (hupd : ∀ p, upd s ⟨num, p⟩ = onString Utf8.valid (fun m t => put m (some t)) s p) :
    mergeFields upd s (o.map (strField num)).toList = (put s o, true) := by
  refine mergeFields_optional (by rintro rfl; exact hnone) ?_
  rintro t rfl
  rw [strField, hupd, onString, ho t rfl]

/-- The fields of a message member that was absent set it. -/
theorem mergeFields_member (get : σ → Option τ) (put : σ → Option τ → σ) (num : Nat)
    {o : Option τ} (ho : ∀ m, o = some m → Sound m) (hget : get s = none) (hnone : put s none = s)
    (hupd : ∀ p, upd s ⟨num, p⟩ = onMember get (fun m x => put m (some x)) s p) :
    mergeFields upd s (o.map (toField num)).toList = (put s o, true) := by
  refine mergeFields_optional (by rintro rfl; exact hnone) ?_
  rintro m rfl
  have hempty : (get s).getD empty = empty := by rw [hget, Option.getD_none]
  rw [toField, hupd, onMember]
  exact onMessage_toField (ho m rfl) (fun s => (get s).getD empty) _ hempty num

end Members

/-- What the schema asks of the header of a packet with one of the types it names. -/
theorem Header.canonical_of_type {t : PacketType} (ht : t.Canonical) :
    ∀ x, some ({ packetType := some t } : Header) = some x →
      ∀ t', x.packetType = some t' → t'.Canonical := by
  intro x hx t' ht'
  obtain rfl := Option.some.inj hx
  exact Option.some.inj ht' ▸ ht

theorem Header.sound {m : Header} (ht : ∀ t, m.packetType = some t → t.Canonical) : Sound m where
  wf := forall_optional (fun t _ => ⟨by norm_num, by norm_num, t.toNat_lt⟩)
  merge_fields := by
    obtain ⟨o⟩ := m
    refine mergeFields_optional (by rintro rfl; rfl) ?_
    rintro t rfl
    have hc : PacketType.ofNat t.toNat = t := ht t rfl
    simp [merge, onVarint, hc]

/-! ### One message at a time -/

section Messages

/-- Number and string members, numbered from 1, are plain fields. -/
theorem plain_num (num : Nat) (h : 0 < num ∧ num < 2 ^ 29) (o : Option UInt32) :
    ∀ f ∈ (o.map (numField num)).toList, f.Plain :=
  forall_optional (fun v _ => numField_plain h.1 h.2 v)

theorem plain_str (num : Nat) (h : 0 < num ∧ num < 2 ^ 29) (o : Option Bytes) :
    ∀ f ∈ (o.map (strField num)).toList, f.Plain :=
  forall_optional (fun s _ => strField_plain h.1 h.2 s)

theorem plain_member {τ : Type} [Message τ] (num : Nat) (h : 0 < num ∧ num < 2 ^ 29)
    (o : Option τ) : ∀ f ∈ (o.map (toField num)).toList, f.Plain :=
  forall_optional (fun m _ => toField_plain h.1 h.2 m)

theorem plain_repeated {τ : Type} [Message τ] (num : Nat) (h : 0 < num ∧ num < 2 ^ 29)
    (xs : List τ) : ∀ f ∈ xs.map (toField num), f.Plain := by
  intro f hf
  obtain ⟨m, -, rfl⟩ := List.mem_map.mp hf
  exact toField_plain h.1 h.2 m

theorem RequestRegister.sound {m : RequestRegister} (hs : Utf8Opt m.username)
    (hsize : byteSizeLong m < 2 ^ 35) : Sound m where
  wf := wf_of_plain hsize (plain_str 1 (by norm_num) m.username)
  merge_fields := mergeFields_str (fun (m : RequestRegister) o => { m with username := o }) 1 hs
    rfl (fun _ => rfl)

theorem RequestUsers.sound {m : RequestUsers} (hsize : byteSizeLong m < 2 ^ 35) : Sound m where
  wf := wf_of_plain hsize (plain_num 1 (by norm_num) m.requestorId)
  merge_fields := mergeFields_num (fun (m : RequestUsers) o => { m with requestorId := o }) 1
    m.requestorId rfl (fun _ => rfl)

theorem RequestRecv.sound {m : RequestRecv} (hsize : byteSizeLong m < 2 ^ 35) : Sound m where
  wf := wf_of_plain hsize (plain_num 1 (by norm_num) m.requestorId)
  merge_fields := mergeFields_num (fun (m : RequestRecv) o => { m with requestorId := o }) 1
    m.requestorId rfl (fun _ => rfl)

theorem RespSend.sound {m : RespSend} (hsize : byteSizeLong m < 2 ^ 35) : Sound m where
  wf := wf_of_plain hsize (plain_num 1 (by norm_num) m.respValue)
  merge_fields := mergeFields_num (fun (m : RespSend) o => { m with respValue := o }) 1
    m.respValue rfl (fun _ => rfl)

theorem RespRegister.sound {m : RespRegister} (hsize : byteSizeLong m < 2 ^ 35) : Sound m where
  wf := wf_of_plain hsize (List.forall_mem_append.mpr
    ⟨plain_num 1 (by norm_num) m.respValue, plain_num 2 (by norm_num) m.assignedId⟩)
  merge_fields := by
    have h1 : mergeFields merge empty (m.respValue.map (numField 1)).toList
        = (({ respValue := m.respValue } : RespRegister), true) :=
      mergeFields_num (fun (m : RespRegister) o => { m with respValue := o }) 1 m.respValue rfl
        (fun _ => rfl)
    refine (mergeFields_append _ h1).trans ?_
    exact mergeFields_num (fun (m : RespRegister) o => { m with assignedId := o }) 2 m.assignedId
      rfl (fun _ => rfl)

theorem RequestSend.sound {m : RequestSend} (hs : Utf8Opt m.message)
    (hsize : byteSizeLong m < 2 ^ 35) : Sound m where
  wf := wf_of_plain hsize (List.forall_mem_append.mpr
    ⟨List.forall_mem_append.mpr
      ⟨plain_num 1 (by norm_num) m.sourceId, plain_num 2 (by norm_num) m.targetId⟩,
    plain_str 3 (by norm_num) m.message⟩)
  merge_fields := by
    have h1 : mergeFields merge empty (m.sourceId.map (numField 1)).toList
        = (({ sourceId := m.sourceId } : RequestSend), true) :=
      mergeFields_num (fun (m : RequestSend) o => { m with sourceId := o }) 1 m.sourceId rfl
        (fun _ => rfl)
    have h2 := (mergeFields_append _ h1).trans
      (mergeFields_num (fun (m : RequestSend) o => { m with targetId := o }) 2 m.targetId rfl
        (fun _ => rfl))
    refine (mergeFields_append _ h2).trans ?_
    exact mergeFields_str (fun (m : RequestSend) o => { m with message := o }) 3 hs rfl
      (fun _ => rfl)

theorem OnlineUser.sound {m : OnlineUser} (hs : Utf8Opt m.username)
    (hsize : byteSizeLong m < 2 ^ 35) : Sound m where
  wf := wf_of_plain hsize (List.forall_mem_append.mpr
    ⟨plain_num 1 (by norm_num) m.userId, plain_str 2 (by norm_num) m.username⟩)
  merge_fields := by
    have h1 : mergeFields merge empty (m.userId.map (numField 1)).toList
        = (({ userId := m.userId } : OnlineUser), true) :=
      mergeFields_num (fun (m : OnlineUser) o => { m with userId := o }) 1 m.userId rfl
        (fun _ => rfl)
    refine (mergeFields_append _ h1).trans ?_
    exact mergeFields_str (fun (m : OnlineUser) o => { m with username := o }) 2 hs rfl
      (fun _ => rfl)

theorem UserMessage.sound {m : UserMessage} (hs : Utf8Opt m.message)
    (hsize : byteSizeLong m < 2 ^ 35) : Sound m where
  wf := wf_of_plain hsize (List.forall_mem_append.mpr
    ⟨plain_num 1 (by norm_num) m.userId, plain_str 2 (by norm_num) m.message⟩)
  merge_fields := by
    have h1 : mergeFields merge empty (m.userId.map (numField 1)).toList
        = (({ userId := m.userId } : UserMessage), true) :=
      mergeFields_num (fun (m : UserMessage) o => { m with userId := o }) 1 m.userId rfl
        (fun _ => rfl)
    refine (mergeFields_append _ h1).trans ?_
    exact mergeFields_str (fun (m : UserMessage) o => { m with message := o }) 2 hs rfl
      (fun _ => rfl)

theorem RespUsers.sound {m : RespUsers} (hs : ∀ u ∈ m.onlineUsers, Utf8Opt u.username)
    (hsize : byteSizeLong m < 2 ^ 35) : Sound m where
  wf := wf_of_plain hsize (List.forall_mem_append.mpr
    ⟨plain_num 1 (by norm_num) m.respValue, plain_repeated 2 (by norm_num) m.onlineUsers⟩)
  merge_fields := by
    have h1 : mergeFields merge empty (m.respValue.map (numField 1)).toList
        = (({ respValue := m.respValue } : RespUsers), true) :=
      mergeFields_num (fun (m : RespUsers) o => { m with respValue := o }) 1 m.respValue rfl
        (fun _ => rfl)
    refine (mergeFields_append _ h1).trans ?_
    refine mergeFields_repeated (fun us => { m with onlineUsers := us }) ?_ []
    intro done u hu
    have hmem : toField 2 u ∈ fields m :=
      List.mem_append_right _ (List.mem_map.mpr ⟨u, hu, rfl⟩)
    have hu' := OnlineUser.sound (hs u hu) (lt_of_le_of_lt (toField_size_le hmem) hsize)
    exact onMessage_toField hu' (fun _ => empty)
      (fun (m : RespUsers) u => { m with onlineUsers := m.onlineUsers ++ [u] }) rfl 2

theorem RespRecv.sound {m : RespRecv} (hs : ∀ u ∈ m.messages, Utf8Opt u.message)
    (hsize : byteSizeLong m < 2 ^ 35) : Sound m where
  wf := wf_of_plain hsize (List.forall_mem_append.mpr
    ⟨plain_num 1 (by norm_num) m.respValue, plain_repeated 2 (by norm_num) m.messages⟩)
  merge_fields := by
    have h1 : mergeFields merge empty (m.respValue.map (numField 1)).toList
        = (({ respValue := m.respValue } : RespRecv), true) :=
      mergeFields_num (fun (m : RespRecv) o => { m with respValue := o }) 1 m.respValue rfl
        (fun _ => rfl)
    refine (mergeFields_append _ h1).trans ?_
    refine mergeFields_repeated (fun us => { m with messages := us }) ?_ []
    intro done u hu
    have hmem : toField 2 u ∈ fields m :=
      List.mem_append_right _ (List.mem_map.mpr ⟨u, hu, rfl⟩)
    have hu' := UserMessage.sound (hs u hu) (lt_of_le_of_lt (toField_size_le hmem) hsize)
    exact onMessage_toField hu' (fun _ => empty)
      (fun (m : RespRecv) u => { m with messages := m.messages ++ [u] }) rfl 2

end Messages

/-! ### The packet -/

/-- A packet the schema allows: its type is an enumerator (or a number that is none), and its
strings are UTF-8. -/
structure Packet.WellFormed (p : Packet) : Prop where
  hdr : ∀ x, p.hdr = some x → ∀ t, x.packetType = some t → t.Canonical
  reqReg : ∀ x, p.reqReg = some x → Utf8Opt x.username
  reqSend : ∀ x, p.reqSend = some x → Utf8Opt x.message
  respUsers : ∀ x, p.respUsers = some x → ∀ u ∈ x.onlineUsers, Utf8Opt u.username
  respRecv : ∀ x, p.respRecv = some x → ∀ u ∈ x.messages, Utf8Opt u.message

/-- The fields of a packet carry its members. -/
theorem Packet.mem_fields (p : Packet) :
    (∀ x, p.hdr = some x → toField 1 x ∈ fields p)
    ∧ (∀ x, p.reqReg = some x → toField 2 x ∈ fields p)
    ∧ (∀ x, p.reqUsers = some x → toField 3 x ∈ fields p)
    ∧ (∀ x, p.reqSend = some x → toField 4 x ∈ fields p)
    ∧ (∀ x, p.reqRecv = some x → toField 5 x ∈ fields p)
    ∧ (∀ x, p.respReg = some x → toField 6 x ∈ fields p)
    ∧ (∀ x, p.respUsers = some x → toField 7 x ∈ fields p)
    ∧ (∀ x, p.respSend = some x → toField 8 x ∈ fields p)
    ∧ (∀ x, p.respRecv = some x → toField 9 x ∈ fields p) := by
  refine ⟨?_, ?_, ?_, ?_, ?_, ?_, ?_, ?_, ?_⟩ <;>
    · intro x hx
      simp [fields, hx]

/-- A packet with a header is not serialized as nothing. -/
theorem Packet.serialize_ne_nil {p : Packet} {hdr : Header} (h : p.hdr = some hdr) :
    serialize p ≠ [] := by
  intro hnil
  obtain ⟨fs, gs, heq⟩ := List.append_of_mem (p.mem_fields.1 hdr h)
  rw [serialize, heq, encode_append, encode_cons] at hnil
  simp [Field.encode, toField, Payload.wireType, encodeVarint, putVarint] at hnil

/-- **A well-formed packet is read back as it was written.** -/
theorem Packet.sound {p : Packet} (h : p.WellFormed) (hsize : byteSizeLong p < 2 ^ 35) :
    Sound p where
  wf := by
    refine wf_of_plain hsize ?_
    simp only [fields, List.forall_mem_append]
    exact ⟨⟨⟨⟨⟨⟨⟨⟨plain_member 1 (by norm_num) _, plain_member 2 (by norm_num) _⟩,
      plain_member 3 (by norm_num) _⟩, plain_member 4 (by norm_num) _⟩,
      plain_member 5 (by norm_num) _⟩, plain_member 6 (by norm_num) _⟩,
      plain_member 7 (by norm_num) _⟩, plain_member 8 (by norm_num) _⟩,
      plain_member 9 (by norm_num) _⟩
  merge_fields := by
    obtain ⟨m1, m2, m3, m4, m5, m6, m7, m8, m9⟩ := p.mem_fields
    have small : ∀ {τ : Type} [Message τ] {num : Nat} {x : τ}, toField num x ∈ fields p →
        byteSizeLong x < 2 ^ 35 := fun hx => lt_of_le_of_lt (toField_size_le hx) hsize
    -- The members are read in the order of their numbers, each into what the earlier ones made.
    have h1 : mergeFields merge empty (p.hdr.map (toField 1)).toList
        = (({ hdr := p.hdr } : Packet), true) :=
      mergeFields_member Packet.hdr (fun p o => { p with hdr := o }) 1
        (fun x hx => Header.sound (h.hdr x hx)) rfl rfl (fun _ => rfl)
    have h2 := (mergeFields_append _ h1).trans
      (mergeFields_member Packet.reqReg (fun p o => { p with reqReg := o }) 2
        (fun x hx => RequestRegister.sound (h.reqReg x hx) (small (m2 x hx))) rfl rfl
        (fun _ => rfl))
    have h3 := (mergeFields_append _ h2).trans
      (mergeFields_member Packet.reqUsers (fun p o => { p with reqUsers := o }) 3
        (fun x hx => RequestUsers.sound (small (m3 x hx))) rfl rfl (fun _ => rfl))
    have h4 := (mergeFields_append _ h3).trans
      (mergeFields_member Packet.reqSend (fun p o => { p with reqSend := o }) 4
        (fun x hx => RequestSend.sound (h.reqSend x hx) (small (m4 x hx))) rfl rfl
        (fun _ => rfl))
    have h5 := (mergeFields_append _ h4).trans
      (mergeFields_member Packet.reqRecv (fun p o => { p with reqRecv := o }) 5
        (fun x hx => RequestRecv.sound (small (m5 x hx))) rfl rfl (fun _ => rfl))
    have h6 := (mergeFields_append _ h5).trans
      (mergeFields_member Packet.respReg (fun p o => { p with respReg := o }) 6
        (fun x hx => RespRegister.sound (small (m6 x hx))) rfl rfl (fun _ => rfl))
    have h7 := (mergeFields_append _ h6).trans
      (mergeFields_member Packet.respUsers (fun p o => { p with respUsers := o }) 7
        (fun x hx => RespUsers.sound (h.respUsers x hx) (small (m7 x hx))) rfl rfl
        (fun _ => rfl))
    have h8 := (mergeFields_append _ h7).trans
      (mergeFields_member Packet.respSend (fun p o => { p with respSend := o }) 8
        (fun x hx => RespSend.sound (small (m8 x hx))) rfl rfl (fun _ => rfl))
    exact (mergeFields_append _ h8).trans
      (mergeFields_member Packet.respRecv (fun p o => { p with respRecv := o }) 9
        (fun x hx => RespRecv.sound (h.respRecv x hx) (small (m9 x hx))) rfl rfl
        (fun _ => rfl))

end ChatApp.Mcc
