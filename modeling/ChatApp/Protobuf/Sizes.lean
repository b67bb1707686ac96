import ChatApp.Client.App
import ChatApp.Server.ServerApp

set_option autoImplicit false

/-! # Packets and the buffers they pass through

Neither end looks at what `SerializeToArray` returns, and both send `ByteSizeLong` bytes: a
packet larger than the transmit buffer is not written, and as many bytes are read from the
buffer, and from behind it, all the same. So a packet is sent whole exactly if it fits the
buffer, 1000 bytes at the client and 1024 at the server: what is typed has 990 bytes or so
(`App.requestPacket_fits_iff`), and the list of a Users response has some bytes fewer than the
buffer (`ServerApp.answer_fits_iff`).

What the client makes of a response that fits (`receivedWhole_iff`): the response built, if
its strings are UTF-8 and the bytes left in the receive buffer behind it add nothing to it. A
string that is not UTF-8 stops the parse, so it does no harm in the last place only.
-/

namespace ChatApp

open Lib Lib.Wire Lib.Wire.Message

/-! ## Sending -/

/-- A packet is handed to `sendB` as it should be: the count is within the transmit buffer,
and the bytes sent are the packet's serialization. -/
def SentWhole (p : Mcc.Packet) (bufferSize count : Nat) (sent : Except Fault Bytes) : Prop :=
  count ≤ bufferSize ∧ sent = .ok (serialize p)

theorem App.sentWhole_iff (p : Mcc.Packet) (txBuffer : Bytes) :
    SentWhole p txBuffer.length (byteSizeLong p) (App.transmit p txBuffer).1 ↔
      byteSizeLong p ≤ txBuffer.length := by
  refine ⟨fun h => h.1, fun hle => ⟨hle, ?_⟩⟩
  have hlen : byteSizeLong p = (serialize p).length := rfl
  rw [App.transmit, serializeToArray_of_le hle]
  dsimp only
  exact readBytes_append hlen

theorem ServerApp.sentWhole_iff {iter : Traversal UserId UserMetadata} {db db' : Database}
    {packet resp : Mcc.Packet} (h : ServerApp.answer iter db packet = some (resp, db')) :
    SentWhole resp ServerApp.bufferSize (ServerApp.handlePacket iter db packet).numBytesTx
        (ServerApp.handlePacket iter db packet).sent ↔
      byteSizeLong resp ≤ ServerApp.bufferSize := by
  have hcount : (ServerApp.handlePacket iter db packet).numBytesTx = byteSizeLong resp := by
    rw [ServerApp.handlePacket_of_some iter db h]
  rw [SentWhole, hcount]
  exact ⟨fun hsent => hsent.1, fun hle => ⟨hle, ServerApp.sent_of_some iter db h hle⟩⟩

/-! ## How large packets are -/

namespace Mcc

/-- A packet of a header and one more member. -/
theorem Packet.byteSizeLong_eq {τ : Type} [Message τ] {p : Packet} {t : PacketType} {num : Nat}
    {m : τ} (ht : t.toNat < 128) (hnum : num < 16)
    (h : fields p = [toField 1 ({ packetType := some t } : Header), toField num m]) :
    byteSizeLong p = 4 + delimSize (byteSizeLong m) := by
  have hhdr : byteSizeLong ({ packetType := some t } : Header) = 2 := by
    show (encode [⟨1, .varint t.toNat⟩]).length = 2
    rw [encode_length_cons, varint_encode_length (by norm_num), varintSize,
      encodeVarint_length_of_lt ht]
    rfl
  rw [byteSizeLong, serialize, h, encode_length_cons, encode_length_cons,
    toField_encode_length (by norm_num), toField_encode_length hnum, hhdr, delimSize,
    encodeVarint_length_of_lt (by norm_num)]
  rfl

theorem OnlineUser.byteSizeLong_eq (id : UserId) (name : Bytes) :
    byteSizeLong ({ userId := some id, username := some name } : OnlineUser)
      = varintSize id.toNat + delimSize name.length := by
  show (encode [numField 1 id, strField 2 name]).length = _
  rw [encode_length_cons, encode_length_cons, numField, varint_encode_length (by norm_num),
    strField, lenDelim_encode_length (by norm_num)]
  rfl

theorem RespUsers.byteSizeLong_eq {v : UInt32} (hv : v.toNat < 128) (us : List OnlineUser) :
    byteSizeLong ({ respValue := some v, onlineUsers := us } : RespUsers)
      = 2 + (us.map fun u => delimSize (byteSizeLong u)).sum := by
  have hus : (encode (us.map (toField 2))).length
      = (us.map fun u => delimSize (byteSizeLong u)).sum := by
    induction us with
    | nil => rfl
    | cons u us ih =>
        rw [List.map_cons, encode_length_cons, ih, toField_encode_length (by norm_num)]
        rfl
  show (encode (numField 1 v :: us.map (toField 2))).length = _
  rw [encode_length_cons, numField, varint_encode_length (by norm_num), hus, varintSize,
    encodeVarint_length_of_lt hv]

end Mcc

/-- A request that fits a client's transmit buffer: what is typed is not too long. -/
def Request.Short : Request → Prop
  | .register username => username.length ≤ 990
  | .send sourceId targetId msg =>
      varintSize sourceId.toNat + varintSize targetId.toNat + msg.length ≤ 990
  | _ => True

/-- The size of what a request carries. -/
def Request.payloadSize : Request → Nat
  | .register username => delimSize username.length
  | .users id => varintSize id.toNat
  | .send sourceId targetId msg =>
      varintSize sourceId.toNat + varintSize targetId.toNat + delimSize msg.length
  | .recv id => varintSize id.toNat

theorem App.requestPacket_size (r : Request) :
    byteSizeLong (App.requestPacket r) = 4 + delimSize r.payloadSize := by
  -- Users and Recv carry one id, and nothing else.
  have hid (id : UserId) : (encode [Mcc.numField 1 id]).length = varintSize id.toNat := by
    rw [encode_length_cons, Mcc.numField, varint_encode_length (by norm_num)]
    rfl
  cases r with
  | register username =>
      rw [App.requestPacket, Mcc.Packet.byteSizeLong_eq (by decide) (by norm_num) rfl]
      congr 2
      show (encode [Mcc.strField 1 username]).length = _
      rw [encode_length_cons, Mcc.strField, lenDelim_encode_length (by norm_num)]
      rfl
  | users id =>
      rw [App.requestPacket, Mcc.Packet.byteSizeLong_eq (by decide) (by norm_num) rfl]
      congr 2
      exact hid id
  | send sourceId targetId msg =>
      rw [App.requestPacket, Mcc.Packet.byteSizeLong_eq (by decide) (by norm_num) rfl]
      congr 2
      show (encode [Mcc.numField 1 sourceId, Mcc.numField 2 targetId, Mcc.strField 3 msg]).length
        = _
      rw [encode_length_cons, encode_length_cons, encode_length_cons, Mcc.numField, Mcc.numField,
        varint_encode_length (by norm_num), varint_encode_length (by norm_num), Mcc.strField,
        lenDelim_encode_length (by norm_num)]
      show varintSize sourceId.toNat + (varintSize targetId.toNat + (delimSize msg.length + 0))
        = varintSize sourceId.toNat + varintSize targetId.toNat + delimSize msg.length
      omega
  | recv id =>
      rw [App.requestPacket, Mcc.Packet.byteSizeLong_eq (by decide) (by norm_num) rfl]
      congr 2
      exact hid id

theorem App.requestPacket_fits_iff (r : Request) :
    byteSizeLong (App.requestPacket r) ≤ App.bufferSize ↔ r.Short := by
  have hbound (n : Nat) : 4 + delimSize n ≤ App.bufferSize ↔ n ≤ 993 := by
    have h := @delimSize_le_iff n 993 (by norm_num) (by norm_num)
    rw [App.bufferSize]
    omega
  rw [App.requestPacket_size, hbound]
  cases r with
  | register username => exact delimSize_le_iff (by norm_num) (by norm_num)
  | users id => exact iff_of_true (le_trans (varintSize_le id.toNat_lt) (by norm_num)) trivial
  | send sourceId targetId msg =>
      have hs := varintSize_le sourceId.toNat_lt
      have ht := varintSize_le targetId.toNat_lt
      have hmsg := @delimSize_le_iff msg.length
        (990 - (varintSize sourceId.toNat + varintSize targetId.toNat)) (by omega) (by omega)
      show varintSize sourceId.toNat + varintSize targetId.toNat + delimSize msg.length ≤ 993 ↔
        varintSize sourceId.toNat + varintSize targetId.toNat + msg.length ≤ 990
      omega
  | recv id => exact iff_of_true (le_trans (varintSize_le id.toNat_lt) (by norm_num)) trivial

namespace ServerApp

/-- Who a Users request comes from. -/
def usersRequestor (packet : Mcc.Packet) : Option UserId :=
  if ((packet.hdr.getD {}).packetType).getD .requestRegister = .requestUsers then
    packet.reqUsers.bind (·.requestorId)
  else none

/-- What the list of the other users takes up in a response. -/
def listSize (iter : Traversal UserId UserMetadata) (db : Database) (requestorId : UserId) : Nat :=
  if db.userExists requestorId then
    (((iter.order db.userMap).filter (fun it => it.1 ≠ requestorId)).map fun it =>
      delimSize (varintSize it.1.toNat + delimSize it.2.username.length)).sum
  else 0

theorem usersResponse_size (iter : Traversal UserId UserMetadata) (db : Database)
    (requestorId : UserId) : byteSizeLong (usersResponse iter db requestorId)
      = 4 + delimSize (2 + listSize iter db requestorId) := by
  by_cases hex : db.userExists requestorId = true
  · have hlist (l : List (UserId × UserMetadata)) :
        (l.map onlineUser).map (fun u => delimSize (byteSizeLong u))
          = l.map fun it => delimSize (varintSize it.1.toNat + delimSize it.2.username.length) := by
      rw [List.map_map]
      apply List.map_congr_left
      intro it _
      exact congrArg delimSize (Mcc.OnlineUser.byteSizeLong_eq it.1 it.2.username)
    simp only [usersResponse, listSize, hex, Bool.not_true, Bool.false_eq_true, if_false, if_true]
    rw [Mcc.Packet.byteSizeLong_eq (by decide) (by norm_num) rfl,
      Mcc.RespUsers.byteSizeLong_eq (by decide), hlist]
  · simp only [usersResponse, listSize, hex, Bool.not_false, if_true, if_false, Bool.false_eq_true]
    rw [Mcc.Packet.byteSizeLong_eq (by decide) (by norm_num) rfl,
      Mcc.RespUsers.byteSizeLong_eq (by decide)]
    rfl

theorem registerResponse_size (id : UserId) :
    byteSizeLong (registerResponse id) = 8 + varintSize id.toNat := by
  have hpayload : byteSizeLong ({ respValue := some 0, assignedId := some id } : Mcc.RespRegister)
      = 2 + varintSize id.toNat := by
    show (encode [Mcc.numField 1 0, Mcc.numField 2 id]).length = _
    rw [encode_length_cons, encode_length_cons, Mcc.numField, Mcc.numField,
      varint_encode_length (by norm_num), varint_encode_length (by norm_num)]
    rfl
  have hid := varintSize_le id.toNat_lt
  rw [registerResponse, Mcc.Packet.byteSizeLong_eq (by decide) (by norm_num) rfl, hpayload,
    delimSize_of_lt (by omega)]
  omega

/-- A Users request is always answered. -/
theorem answer_of_usersRequestor (iter : Traversal UserId UserMetadata) (db : Database)
    {packet : Mcc.Packet} {id : UserId} (h : id ∈ usersRequestor packet) :
    answer iter db packet = some (usersResponse iter db id, db) := by
  unfold usersRequestor at h
  split_ifs at h with htype
  · have hid : packet.reqUsers.bind (·.requestorId) = some id := h
    rw [answer, htype, answerUsers, hid]
    rfl
  · cases h

/-- A response fits a buffer if the list in it does, with 9 bytes around the list. -/
theorem answer_fits_iff {iter : Traversal UserId UserMetadata} {db db' : Database}
    {packet resp : Mcc.Packet} (h : answer iter db packet = some (resp, db')) {k : Nat}
    (hk : 125 ≤ k) (hk' : k < 16000) : byteSizeLong resp ≤ k + 9 ↔
      ∀ id ∈ usersRequestor packet, listSize iter db id ≤ k := by
  unfold answer at h
  split at h
  next htype =>
    obtain ⟨username, -, heq⟩ := Option.map_eq_some_iff.mp h
    cases heq
    -- A registration is answered in a few bytes; no list is in it.
    have hid := varintSize_le db.nextId.toNat_lt
    rw [usersRequestor, htype, if_neg (by decide)]
    refine iff_of_true ?_ nofun
    rw [registerResponse_size]
    omega
  next htype =>
    obtain ⟨id, hid, heq⟩ := Option.map_eq_some_iff.mp h
    cases heq
    have hbound := @delimSize_le_iff (2 + listSize iter db id) (k + 2) (by omega) (by omega)
    rw [usersRequestor, if_pos htype, hid, usersResponse_size]
    simp only [Option.mem_some_iff, forall_eq']
    omega
  next => cases h

end ServerApp

/-! ## Strings that are not UTF-8 -/

/-- The first element of a list that fails a test. -/
theorem exists_first {α : Type} {p : α → Prop} {l : List α} (h : ¬∀ x ∈ l, p x) :
    ∃ init x rest, l = init ++ x :: rest ∧ (∀ y ∈ init, p y) ∧ ¬p x := by
  induction l with
  | nil => exact absurd (fun x hx => absurd hx List.not_mem_nil) h
  | cons a l ih =>
      by_cases ha : p a
      · have hl : ¬∀ x ∈ l, p x := fun hl => h (List.forall_mem_cons.mpr ⟨ha, hl⟩)
        obtain ⟨init, x, rest, rfl, hinit, hx⟩ := ih hl
        exact ⟨a :: init, x, rest, rfl, List.forall_mem_cons.mpr ⟨ha, hinit⟩, hx⟩
      · exact ⟨[], a, l, rfl, by simp, ha⟩

namespace Mcc

/-- A user whose name is not UTF-8 is read, name and all, and the read fails. -/
theorem OnlineUser.parse_invalid {u : OnlineUser} (hname : ¬Utf8Opt u.username)
    (hsize : byteSizeLong u < 2 ^ 35) :
    mergeFrom merge empty (serialize u) = (u, false) := by
  have hplain : ∀ f ∈ fields u, f.Plain := List.forall_mem_append.mpr
    ⟨plain_num 1 (by norm_num) u.userId, plain_str 2 (by norm_num) u.username⟩
  have hmerge : mergeFields merge empty (fields u) = (u, false) := by
    obtain ⟨id, username⟩ := u
    obtain ⟨name, rfl, hinvalid⟩ : ∃ name, username = some name ∧ ¬Utf8.valid name = true := by
      simpa [Utf8Opt] using hname
    have hid : mergeFields merge empty (id.map (numField 1)).toList
        = (({ userId := id } : OnlineUser), true) :=
      mergeFields_num (fun (m : OnlineUser) o => { m with userId := o }) 1 id rfl (fun _ => rfl)
    refine (mergeFields_append _ hid).trans ?_
    simp [merge, mergeFields, strField, onString, hinvalid]
  rw [mergeFrom, serialize, parse_encode (wf_of_plain hsize hplain), hmerge]
  rfl

/-- A list of users is read up to and including the first whose name is not UTF-8. -/
theorem RespUsers.merge_invalid {m : RespUsers} {init rest : List OnlineUser} {x : OnlineUser}
    (hlist : m.onlineUsers = init ++ x :: rest) (hinit : ∀ u ∈ init, Utf8Opt u.username)
    (hname : ¬Utf8Opt x.username) (hsize : byteSizeLong m < 2 ^ 35) :
    mergeFrom merge empty (serialize m)
      = (({ m with onlineUsers := init ++ [x] } : RespUsers), false) := by
  have hmem (u : OnlineUser) (hu : u ∈ m.onlineUsers) : toField 2 u ∈ fields m :=
    List.mem_append_right _ (List.mem_map.mpr ⟨u, hu, rfl⟩)
  have hsmall (u : OnlineUser) (hu : u ∈ m.onlineUsers) : byteSizeLong u < 2 ^ 35 :=
    lt_of_le_of_lt (toField_size_le (hmem u hu)) hsize
  have hplain : ∀ f ∈ fields m, f.Plain := List.forall_mem_append.mpr
    ⟨plain_num 1 (by norm_num) m.respValue, plain_repeated 2 (by norm_num) m.onlineUsers⟩
  have hvalue : mergeFields merge empty (m.respValue.map (numField 1)).toList
      = (({ respValue := m.respValue } : RespUsers), true) :=
    mergeFields_num (fun (m : RespUsers) o => { m with respValue := o }) 1 m.respValue rfl
      (fun _ => rfl)
  -- The users in front of the first bad one are read as they were written.
  have hgood : mergeFields merge ({ respValue := m.respValue } : RespUsers)
      (init.map (toField 2)) = (({ m with onlineUsers := init } : RespUsers), true) := by
    refine mergeFields_repeated (fun us => ({ m with onlineUsers := us } : RespUsers))
      (fun done u hu => ?_) []
    have hsound := OnlineUser.sound (hinit u hu) (hsmall u (by rw [hlist]; simp [hu]))
    exact onMessage_toField hsound (fun _ => empty)
      (fun (m : RespUsers) u => { m with onlineUsers := m.onlineUsers ++ [u] }) rfl 2
  -- The bad one is put into the list before its string is checked.
  have hstep : merge ({ m with onlineUsers := init } : RespUsers) (toField 2 x)
      = (({ m with onlineUsers := init ++ [x] } : RespUsers), false) := by
    have hparse := OnlineUser.parse_invalid hname (hsmall x (by rw [hlist]; simp))
    show onMessage merge (fun _ => empty) _ _ _ = _
    simp only [toField, onMessage, hparse]
  have hmerge : mergeFields merge empty (fields m)
      = (({ m with onlineUsers := init ++ [x] } : RespUsers), false) := by
    show mergeFields merge empty
      ((m.respValue.map (numField 1)).toList ++ m.onlineUsers.map (toField 2)) = _
    rw [mergeFields_append _ hvalue, hlist, List.map_append, mergeFields_append _ hgood,
      List.map_cons, mergeFields, hstep]
    rfl
  rw [mergeFrom, serialize, parse_encode (wf_of_plain hsize hplain), hmerge]
  rfl

/-- A packet of a header and one more member that fails to be read is read as far as the member
was, and nothing behind it is looked at. -/
theorem Packet.parse_of_member {τ : Type} [Message τ] {p q : Packet} {hdr : Header} {num : Nat}
    {m : τ} (hhdr : ∀ t, hdr.packetType = some t → t.Canonical) (hnum : 0 < num ∧ num < 2 ^ 29)
    (hfields : fields p = [toField 1 hdr, toField num m])
    (hmember : merge ({ hdr := some hdr } : Packet) (toField num m) = (q, false))
    (hsize : byteSizeLong p < 2 ^ 35) (tail : Bytes) :
    (parseFromArray (serialize p ++ tail) : Packet × Bool).1 = q := by
  have hplain : ∀ f ∈ fields p, f.Plain := by
    rw [hfields]
    simp only [List.forall_mem_cons, List.not_mem_nil, false_implies, implies_true, and_true]
    exact ⟨toField_plain (by norm_num) (by norm_num) hdr, toField_plain hnum.1 hnum.2 m⟩
  have hfirst : merge (empty : Packet) (toField 1 hdr) = ({ hdr := some hdr }, true) :=
    onMessage_toField (Header.sound hhdr) (fun p : Packet => (p.hdr).getD empty)
      (fun p x => { p with hdr := some x }) rfl 1
  -- The failure inside the member is a failure of the packet.
  have hmerge : mergeFields merge (empty : Packet) [toField 1 hdr, toField num m] = (q, false) := by
    rw [mergeFields_cons_of_ok _ hfirst, mergeFields, hmember]
    rfl
  rw [parseFromArray, mergeFrom, serialize, parse_encode_append (wf_of_plain hsize hplain),
    hfields, mergeFields_append_of_fail _ hmerge]

/-- A Users response is read up to and including the first user whose name is not UTF-8. -/
theorem Packet.parse_invalid {hdr : Header} (hhdr : ∀ t, hdr.packetType = some t → t.Canonical)
    {m m' : RespUsers} (h : mergeFrom merge empty (serialize m) = (m', false))
    (hsize : byteSizeLong ({ hdr := some hdr, respUsers := some m } : Packet) < 2 ^ 35)
    (tail : Bytes) :
    (parseFromArray (serialize ({ hdr := some hdr, respUsers := some m } : Packet) ++ tail)
      : Packet × Bool).1 = { hdr := some hdr, respUsers := some m' } := by
  refine Packet.parse_of_member hhdr (by norm_num : 0 < 7 ∧ 7 < 2 ^ 29) rfl ?_ hsize tail
  show onMember Packet.respUsers _ _ _ = _
  simp only [toField, onMember, onMessage, Option.getD_none, h]

/-- A registration is read back with its name, UTF-8 or not. -/
theorem RequestRegister.parse_invalid {m : RequestRegister} (hname : ¬Utf8Opt m.username)
    (hsize : byteSizeLong m < 2 ^ 35) : mergeFrom merge empty (serialize m) = (m, false) := by
  have hplain : ∀ f ∈ fields m, f.Plain := plain_str 1 (by norm_num) m.username
  have hmerge : mergeFields merge empty (fields m) = (m, false) := by
    obtain ⟨username⟩ := m
    obtain ⟨name, rfl, hinvalid⟩ : ∃ name, username = some name ∧ ¬Utf8.valid name = true := by
      simpa [Utf8Opt] using hname
    simp [fields, merge, mergeFields, strField, onString, hinvalid, empty]
  rw [mergeFrom, serialize, parse_encode (wf_of_plain hsize hplain), hmerge]
  rfl

/-- And so is a Send request with its message. -/
theorem RequestSend.parse_invalid {m : RequestSend} (hmsg : ¬Utf8Opt m.message)
    (hsize : byteSizeLong m < 2 ^ 35) : mergeFrom merge empty (serialize m) = (m, false) := by
  have hplain : ∀ f ∈ fields m, f.Plain := List.forall_mem_append.mpr
    ⟨List.forall_mem_append.mpr
      ⟨plain_num 1 (by norm_num) m.sourceId, plain_num 2 (by norm_num) m.targetId⟩,
    plain_str 3 (by norm_num) m.message⟩
  have hmerge : mergeFields merge empty (fields m) = (m, false) := by
    obtain ⟨sourceId, targetId, message⟩ := m
    obtain ⟨msg, rfl, hinvalid⟩ : ∃ msg, message = some msg ∧ ¬Utf8.valid msg = true := by
      simpa [Utf8Opt] using hmsg
    have h1 : mergeFields merge empty (sourceId.map (numField 1)).toList
        = (({ sourceId := sourceId } : RequestSend), true) :=
      mergeFields_num (fun (m : RequestSend) o => { m with sourceId := o }) 1 sourceId rfl
        (fun _ => rfl)
    have h2 := (mergeFields_append _ h1).trans
      (mergeFields_num (fun (m : RequestSend) o => { m with targetId := o }) 2 targetId rfl
        (fun _ => rfl))
    refine (mergeFields_append _ h2).trans ?_
    simp [merge, mergeFields, strField, onString, hinvalid]
  rw [mergeFrom, serialize, parse_encode (wf_of_plain hsize hplain), hmerge]
  rfl

end Mcc

/-! ## Receiving -/

/-- The response as a client has read it, from a receive buffer that held `rxBuffer`. -/
def App.decoded (rxBuffer : Bytes) (resp : Mcc.Packet) : Option Mcc.Packet :=
  (App.receive rxBuffer [.data (serialize resp)]).map Prod.fst

/-- A response comes through whole: it fits the receive buffer, and what is decoded is what
was built. -/
def ReceivedWhole (resp : Mcc.Packet) (rxBuffer : Bytes) : Prop :=
  byteSizeLong resp ≤ rxBuffer.length ∧ App.decoded rxBuffer resp = some resp

/-- The users a response lists. -/
def listedUsers (resp : Mcc.Packet) : List Mcc.OnlineUser :=
  (resp.respUsers.getD {}).onlineUsers

/-- The names listed are UTF-8 and the bytes behind the response, read as further fields, add
nothing to it; or the one name that is not UTF-8 is the last. -/
def Legible (resp : Mcc.Packet) (stale : Bytes) : Prop :=
  ((∀ u ∈ listedUsers resp, Mcc.Utf8Opt u.username) ∧ (mergeFrom merge resp stale).1 = resp) ∨
    ∃ init last, listedUsers resp = init ++ [last] ∧ (∀ u ∈ init, Mcc.Utf8Opt u.username) ∧
      ¬Mcc.Utf8Opt last.username

section Reading

variable {iter : Traversal UserId UserMetadata} {db db' : Database} {packet resp : Mcc.Packet}

/-- A built response has a header, and the users it lists have an id and a name each. -/
theorem ServerApp.answer_wellFormed (h : ServerApp.answer iter db packet = some (resp, db'))
    (hvalid : ∀ u ∈ listedUsers resp, Mcc.Utf8Opt u.username) : resp.WellFormed := by
  rcases ServerApp.answer_cases h with ⟨username, rfl, -⟩ | ⟨id, rfl, -⟩
  · exact ⟨Mcc.Header.canonical_of_type rfl, nofun, nofun, nofun, nofun⟩
  · refine ⟨Mcc.Header.canonical_of_type rfl, nofun, nofun, fun x hx => ?_, nofun⟩
    simpa [listedUsers, hx] using hvalid

/-- A Users response whose names are not all UTF-8 is read as built exactly if the first name
that is not is the last. -/
theorem ServerApp.parse_eq_iff_of_invalid {id : UserId} {init rest : List Mcc.OnlineUser}
    {x : Mcc.OnlineUser} (hlist : listedUsers (ServerApp.usersResponse iter db id)
      = init ++ x :: rest)
    (hinit : ∀ u ∈ init, Mcc.Utf8Opt u.username) (hx : ¬Mcc.Utf8Opt x.username)
    (hsize : byteSizeLong (ServerApp.usersResponse iter db id) < 2 ^ 35) (tail : Bytes) :
    (parseFromArray (serialize (ServerApp.usersResponse iter db id) ++ tail)
      : Mcc.Packet × Bool).1 = ServerApp.usersResponse iter db id ↔ rest = [] := by
  -- A list with a name in it is that of a positive response.
  obtain ⟨m, hresp, hm⟩ : ∃ m : Mcc.RespUsers, ServerApp.usersResponse iter db id
      = { hdr := some { packetType := some .respUsers }, respUsers := some m } ∧
      m.onlineUsers = init ++ x :: rest := by
    by_cases hex : db.userExists id = true
    · exact ⟨_, by simp only [ServerApp.usersResponse, hex]; rfl, by
        simpa [listedUsers, ServerApp.usersResponse, hex] using hlist⟩
    · simp [listedUsers, ServerApp.usersResponse, hex] at hlist
  rw [hresp] at hsize ⊢
  have hmem := (Mcc.Packet.mem_fields
    { hdr := some { packetType := some .respUsers }, respUsers := some m }).2.2.2.2.2.2.1 m rfl
  have hread := Mcc.RespUsers.merge_invalid hm hinit hx
    (lt_of_le_of_lt (toField_size_le hmem) hsize)
  rw [Mcc.Packet.parse_invalid (by rintro t ⟨⟩; rfl) hread hsize]
  obtain ⟨v, us⟩ := m
  obtain rfl : us = init ++ x :: rest := hm
  simp only [Mcc.Packet.mk.injEq, Option.some.injEq, Mcc.RespUsers.mk.injEq, true_and, and_true,
    List.append_cancel_left_eq, List.cons.injEq]
  exact eq_comm

/-- **What a client reads from a response**, with any bytes behind it. -/
theorem ServerApp.parse_eq_iff (h : ServerApp.answer iter db packet = some (resp, db'))
    (hsize : byteSizeLong resp < 2 ^ 35) (tail : Bytes) :
    (parseFromArray (serialize resp ++ tail) : Mcc.Packet × Bool).1 = resp ↔
      Legible resp tail := by
  by_cases hvalid : ∀ u ∈ listedUsers resp, Mcc.Utf8Opt u.username
  · have hsound := Mcc.Packet.sound (ServerApp.answer_wellFormed h hvalid) hsize
    rw [hsound.parse_append, Legible]
    refine ⟨fun heq => .inl ⟨hvalid, heq⟩, ?_⟩
    rintro (⟨-, heq⟩ | ⟨init, last, hlist, -, hlast⟩)
    · exact heq
    · exact absurd (hvalid last (by simp [hlist])) hlast
  · obtain ⟨init, x, rest, hlist, hinit, hx⟩ := exists_first hvalid
    rcases ServerApp.answer_cases h with ⟨username, rfl, -⟩ | ⟨id, rfl, -⟩
    · simp [listedUsers, ServerApp.registerResponse] at hlist
    · rw [ServerApp.parse_eq_iff_of_invalid hlist hinit hx hsize]
      constructor
      · rintro rfl
        exact .inr ⟨init, x, hlist, hinit, hx⟩
      · rintro (⟨hall, -⟩ | ⟨init', last, hlist', hinit', -⟩)
        · exact absurd hall hvalid
        · -- The first name that is not UTF-8 is not among those before the last.
          rcases List.eq_nil_or_concat rest with hrest | ⟨rest', y, hrest⟩
          · exact hrest
          · have hsplit : init ++ x :: rest' = init' := by
              rw [hlist, hrest, List.concat_eq_append, ← List.cons_append,
                ← List.append_assoc] at hlist'
              exact (List.append_inj' hlist' rfl).1
            exact absurd (hinit' x (by simp [← hsplit])) hx

/-- A response comes through whole exactly if it fits the receive buffer and is legible. -/
theorem receivedWhole_iff (h : ServerApp.answer iter db packet = some (resp, db'))
    {rxBuffer : Bytes} (hrx : rxBuffer.length = App.bufferSize) :
    ReceivedWhole resp rxBuffer ↔ byteSizeLong resp ≤ App.bufferSize ∧
      Legible resp (rxBuffer.drop (byteSizeLong resp)) := by
  rw [ReceivedWhole, hrx]
  refine and_congr_right fun hle => ?_
  have hsize : byteSizeLong resp < 2 ^ 35 := lt_of_le_of_lt hle (by decide)
  have hne : serialize resp ≠ [] := by
    rcases ServerApp.answer_cases h with ⟨username, rfl, -⟩ | ⟨id, rfl, -⟩
    · exact Mcc.Packet.serialize_ne_nil rfl
    · exact Mcc.Packet.serialize_ne_nil rfl
  have htake : (serialize resp).take App.bufferSize = serialize resp := List.take_of_length_le hle
  rw [App.decoded, App.receive, receiveLoop_eq]
  simp only [arrived, htake, if_neg hne, Option.map_some, Option.bind_eq_bind, Option.bind_some,
    Option.pure_def, Option.some.injEq]
  exact ServerApp.parse_eq_iff h hsize _

end Reading

/-! ## An exchange -/

namespace ServerApp

/-- The packet a connection is served for, given what the calls of `recv` come back with. -/
def received (recvs : List Recv) : Option Mcc.Packet :=
  (receiveLoop (List.replicate bufferSize 0) bufferSize recvs).map
    fun rxBuffer => (parseFromArray rxBuffer).1

theorem handleRequest_eq (iter : Traversal UserId UserMetadata) (db : Database)
    (recvs : List Recv) :
    handleRequest iter db recvs = (received recvs).map (handlePacket iter db) := by
  rw [handleRequest, received]
  cases receiveLoop (List.replicate bufferSize 0) bufferSize recvs <;> rfl

@[simp] theorem handlePacket_packet (iter : Traversal UserId UserMetadata) (db : Database)
    (packet : Mcc.Packet) : (handlePacket iter db packet).packet = packet := by
  rw [handlePacket_eq]

end ServerApp

/-- Every packet of an exchange is transmitted whole and in bounds: the request a client makes
from a transmit buffer, whatever the server builds for the bytes that reach it, and that
response again at the client, in a receive buffer. -/
structure TransmittedWhole (iter : Traversal UserId UserMetadata) (db : Database) (r : Request)
    (txBuffer : Bytes) (recvs : List Recv) (rxBuffer : Bytes) : Prop where
  request : SentWhole (App.requestPacket r) txBuffer.length
    (byteSizeLong (App.requestPacket r)) (App.transmit (App.requestPacket r) txBuffer).1
  response : ∀ h resp db', ServerApp.handleRequest iter db recvs = some h →
    ServerApp.answer iter db h.packet = some (resp, db') →
      SentWhole resp ServerApp.bufferSize h.numBytesTx h.sent ∧ ReceivedWhole resp rxBuffer
  nothing : ∀ h, ServerApp.handleRequest iter db recvs = some h →
    ServerApp.answer iter db h.packet = none → h.sent = .ok []

/-- **An exchange goes through whole exactly if what is typed is short enough, the users
listed are few enough, and the response is legible** in the receive buffer. -/
theorem transmittedWhole_iff (iter : Traversal UserId UserMetadata) (db : Database) (r : Request)
    {txBuffer : Bytes} (htx : txBuffer.length = App.bufferSize) (recvs : List Recv)
    {rxBuffer : Bytes} (hrx : rxBuffer.length = App.bufferSize) :
    TransmittedWhole iter db r txBuffer recvs rxBuffer ↔ r.Short ∧
      ∀ packet ∈ ServerApp.received recvs,
        (∀ id ∈ ServerApp.usersRequestor packet, ServerApp.listSize iter db id ≤ 991) ∧
        ∀ resp db', ServerApp.answer iter db packet = some (resp, db') →
          Legible resp (rxBuffer.drop (byteSizeLong resp)) := by
  have hrequest : SentWhole (App.requestPacket r) txBuffer.length
      (byteSizeLong (App.requestPacket r)) (App.transmit (App.requestPacket r) txBuffer).1
        ↔ r.Short := by
    rw [App.sentWhole_iff, htx, App.requestPacket_fits_iff]
  constructor
  · intro hwhole
    refine ⟨hrequest.mp hwhole.request, fun packet hpacket => ?_⟩
    have hhandle : ServerApp.handleRequest iter db recvs
        = some (ServerApp.handlePacket iter db packet) := by
      rw [ServerApp.handleRequest_eq, hpacket, Option.map_some]
    -- A response that is received whole fits the receive buffer and is legible there.
    have hresponse (resp db') (hans : ServerApp.answer iter db packet = some (resp, db')) :=
      (receivedWhole_iff hans hrx).mp
        (hwhole.response _ resp db' hhandle (by rwa [ServerApp.handlePacket_packet])).2
    constructor
    · intro id hid
      have hans := ServerApp.answer_of_usersRequestor iter db hid
      have hfits := (hresponse _ _ hans).1
      exact (ServerApp.answer_fits_iff hans (k := 991) (by norm_num) (by norm_num)).mp hfits id hid
    · intro resp db' hans
      exact (hresponse resp db' hans).2
  · rintro ⟨hshort, hpackets⟩
    refine ⟨hrequest.mpr hshort, ?_, ?_⟩
    · intro h resp db' hh hans
      rw [ServerApp.handleRequest_eq] at hh
      obtain ⟨packet, hpacket, rfl⟩ := Option.map_eq_some_iff.mp hh
      rw [ServerApp.handlePacket_packet] at hans
      obtain ⟨hlist, hlegible⟩ := hpackets packet hpacket
      have hfits : byteSizeLong resp ≤ App.bufferSize :=
        (ServerApp.answer_fits_iff hans (k := 991) (by norm_num) (by norm_num)).mpr hlist
      constructor
      · exact (ServerApp.sentWhole_iff hans).mpr (le_trans hfits (by decide))
      · exact (receivedWhole_iff hans hrx).mpr ⟨hfits, hlegible resp db' hans⟩
    · intro h hh hnone
      rw [ServerApp.handleRequest_eq] at hh
      obtain ⟨packet, -, rfl⟩ := Option.map_eq_some_iff.mp hh
      rw [ServerApp.handlePacket_packet] at hnone
      rw [ServerApp.handlePacket_of_none iter db hnone]
      rfl

theorem transmittedWhole_register_first_user :
    TransmittedWhole (.ascending _ _) .empty (.register [65]) (List.replicate 1000 0)
      [.data (serialize (App.requestPacket (.register [65])))] (List.replicate 1000 0) := by
  refine (transmittedWhole_iff _ _ _ (by decide +kernel) _ (by decide +kernel)).mpr
    ⟨(App.requestPacket_fits_iff _).mp (by decide), fun packet hpacket => ?_⟩
  have hreceived : ServerApp.received [.data (serialize (App.requestPacket (.register [65])))]
      = some (App.requestPacket (.register [65])) := by decide +kernel
  obtain rfl := Option.some.inj (hreceived.symm.trans hpacket)
  refine ⟨nofun, ?_⟩
  rintro resp db' ⟨⟩
  exact .inl ⟨nofun, by decide +kernel⟩

/-- A name of a thousand characters. -/
theorem not_transmittedWhole_long_name :
    ¬TransmittedWhole (.ascending _ _) .empty (.register (List.replicate 1000 97))
      (List.replicate 1000 0) [] (List.replicate 1000 0) := by
  intro hwhole
  have hsize : byteSizeLong (App.requestPacket (.register (List.replicate 1000 97))) = 1010 := by
    decide +kernel
  have hle := hwhole.request.1
  rw [hsize, List.length_replicate] at hle
  omega

end ChatApp
