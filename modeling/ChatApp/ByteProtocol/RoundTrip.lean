import ChatApp.ByteProtocol.Buffers

set_option autoImplicit false

/-! # Round trips of the byte protocol

The two ends are written separately, each with its own lengths and conditions. Here a packet
goes from one to the other: a request from the encoder to `parse` (`agrees_iff`), and the list
of online users from `parseRequestUsers` to `handleRespUsers` (`users_roundTrip`).

The requests agree but for one: a Send request may be as short as its two ids for the encoder,
while the parser asserts that there is more.
-/

namespace ChatApp

open Lib MccServer

/-! ## Requests -/

/-- The type of a request's packet. -/
def requestType : Request → PacketType
  | .register _ => .kRequestRegister
  | .users _ => .kRequestUsers
  | .send _ _ _ => .kRequestSend
  | .recv _ => .kRequestRecv

/-- The server takes a packet for the request: it finds its type, its ids and its bytes, passes
the assertions, and answers that request. -/
structure Understood (P : Platform) (s : MccServer) (data : Bytes) (r : Request) : Prop where
  request : requestIn P data = .ok r
  answered : s.parse P data = s.respond (reply P s.db r)

/-- The packet a client encodes for a request is as long as its header says, and is understood.
-/
def Agrees (P : Platform) (c : MccClient) (s : MccServer) (r : Request) : Prop :=
  ∃ n c' data len, c.encodeRequest P.byteOrder r = .ok (n, c') ∧
    readBytes c'.txBuffer n = .ok data ∧
    Header.read P.byteOrder data = .ok ⟨requestType r, len⟩ ∧ n = sizeofHeader + len.toNat ∧
    Understood P s data r

variable {P : Platform}

/-- Every request is encoded as a header of its type and a payload of the length in it. -/
theorem requestBytes_eq (bo : ByteOrder) (r : Request) :
    ∃ payload, MccClient.requestBytes bo r
      = Header.bytes bo ⟨requestType r, UInt32.ofNat payload.length⟩ ++ payload := by
  cases r with
  | register username => exact ⟨username, rfl⟩
  | users id =>
      refine ⟨bo.toBytes id, ?_⟩
      rw [ByteOrder.toBytes_length]
      rfl
  | send sourceId targetId msg =>
      refine ⟨bo.toBytes sourceId ++ (bo.toBytes targetId ++ msg), ?_⟩
      have hlen : (bo.toBytes sourceId ++ (bo.toBytes targetId ++ msg)).length
          = 8 + msg.length := by
        rw [List.length_append, List.length_append, ByteOrder.toBytes_length,
          ByteOrder.toBytes_length]
        omega
      rw [hlen]
      rfl
  | recv id =>
      refine ⟨bo.toBytes id, ?_⟩
      rw [ByteOrder.toBytes_length]
      rfl

/-- The header of an encoded request. -/
theorem read_requestBytes {bo : ByteOrder} {r : Request}
    (hpayload : (MccClient.requestBytes bo r).length < sizeofHeader + 2 ^ 32) :
    ∃ len, Header.read bo (MccClient.requestBytes bo r) = .ok ⟨requestType r, len⟩ ∧
      (MccClient.requestBytes bo r).length = sizeofHeader + len.toNat := by
  rcases requestBytes_eq bo r with ⟨payload, hbytes⟩
  have htype : PacketType.ofByte (requestType r).toByte = requestType r := by
    cases r <;> rfl
  rw [hbytes, List.length_append, Header.bytes_length] at hpayload ⊢
  refine ⟨UInt32.ofNat payload.length, ?_, ?_⟩
  · rw [Header.read_bytes, htype]
  · rw [UInt32.toNat_ofNat', Nat.mod_eq_of_lt (by omega)]

/-- The parser's assertion fails on a Send request without a message. -/
theorem requestIn_sendBytes_nil (P : Platform) (srcId targetId : UserId) :
    requestIn P (MccClient.sendBytes P.byteOrder srcId targetId []) = .error .assertFailed := by
  rcases requestIn_header P .kRequestSend (UInt32.ofNat (8 + 0))
    (P.byteOrder.toBytes srcId ++ (P.byteOrder.toBytes targetId ++ [])) rfl with ⟨hhdr, -⟩
  unfold MccClient.sendBytes requestIn
  rw [List.length_nil, hhdr]
  rfl

/-- **Encoder and parser agree on every request but a Send without a message.** -/
theorem agrees_iff {c : MccClient} {s : MccServer} {r : Request}
    (hfits : (MccClient.requestBytes P.byteOrder r).length ≤ c.txBuffer.length)
    (hpayload : (MccClient.requestBytes P.byteOrder r).length < sizeofHeader + 2 ^ 32) :
    Agrees P c s r ↔ r.msg? ≠ some [] := by
  have hencode := (MccClient.encodeRequest_eq P.byteOrder c r).trans (MccClient.put_of_le hfits)
  constructor
  · rintro ⟨n, c', data, len, hencoded, hread, -, -, hunderstood⟩ hempty
    rw [hencode, Except.ok.injEq, Prod.mk.injEq] at hencoded
    rcases hencoded with ⟨rfl, rfl⟩
    rw [readBytes_append rfl, Except.ok.injEq] at hread
    subst hread
    cases r with
    | send sourceId targetId msg =>
        -- The parser asserts that the payload is longer than the two ids.
        have hnil : msg = [] := Option.some.inj hempty
        subst hnil
        have hfound := hunderstood.request
        rw [MccClient.requestBytes, requestIn_sendBytes_nil] at hfound
        cases hfound
    | register username => cases hempty
    | users id => cases hempty
    | recv id => cases hempty
  · intro hne
    have hsendable : Net.Sendable P.byteOrder r := by
      refine ⟨hpayload, ?_⟩
      intro msg hmsg hnil
      apply hne
      rw [← hnil]
      exact hmsg
    have hfound := Net.requestIn_requestBytes P hsendable
    rcases read_requestBytes hpayload with ⟨len, hhdr, hlen⟩
    refine ⟨_, _, _, len, hencode, readBytes_append rfl, hhdr, hlen, hfound, ?_⟩
    rw [parse_eq, hfound, ok_bind]

/-- A message of one byte. -/
theorem agrees_one_byte :
    Agrees .littleEndian ⟨List.replicate 14 0, []⟩ ⟨.empty, List.replicate 6 0⟩
      (.send 0 1 [65]) :=
  (agrees_iff (by decide) (by decide)).mpr (by decide)

/-- A message of no bytes: the encoder's packet stops the server. -/
theorem not_agrees_empty_message :
    ¬Agrees .littleEndian ⟨List.replicate 13 0, []⟩ ⟨.empty, List.replicate 6 0⟩
      (.send 0 1 []) := by
  rintro ⟨n, c', data, len, hencoded, hread, -, -, hunderstood⟩
  have hencode : (MccClient.mk (List.replicate 13 0) []).encodeRequest .little (.send 0 1 [])
      = .ok (13, ⟨[2, 8, 0, 0, 0, 0, 0, 0, 0, 1, 0, 0, 0], []⟩) := by
    decide
  have hsame := hencode.symm.trans hencoded
  rw [Except.ok.injEq, Prod.mk.injEq] at hsame
  rcases hsame with ⟨rfl, rfl⟩
  rw [readBytes_of_le (by decide), Except.ok.injEq] at hread
  subst hread
  have hfound := hunderstood.request
  have herr : requestIn .littleEndian
      (List.take 13 [2, 8, 0, 0, 0, 0, 0, 0, 0, 1, 0, 0, 0]) = .error .assertFailed := by
    decide
  rw [herr] at hfound
  cases hfound

/-! ## The list of online users -/

/-- The records list the users other than the requester, each once. -/
structure ListsOthers (db : Database) (id : UserId) (rs : List (UserId × Bytes)) : Prop where
  mem_iff : ∀ i name, (i, name) ∈ rs ↔ i ≠ id ∧ db.nameOf i = some name
  nodup : (rs.map Prod.fst).Nodup

/-- A map from the names of the users other than the requester to the id of one who bears the
name. -/
structure MapsOthers (db : Database) (id : UserId) (m : UnorderedMap Bytes UserId) : Prop where
  mem_iff : ∀ name, name ∈ m ↔ ∃ i, i ≠ id ∧ db.nameOf i = some name
  bears : ∀ name i, m[name]? = some i → i ≠ id ∧ db.nameOf i = some name
  only : ∀ name i, i ≠ id → db.nameOf i = some name →
    (∀ j, j ≠ id → db.nameOf j = some name → j = i) → m[name]? = some i

/-- The bytes of a positive Users response with its records. -/
structure HoldsRecords (P : Platform) (db : Database) (id : UserId) (written : Bytes)
    (count : UserId) (rs : List (UserId × Bytes)) : Prop where
  written_eq : ∃ h : Header, h.type = .kRespUsers ∧ written = h.bytes P.byteOrder
    ++ ([0] ++ (P.byteOrder.toBytes count ++ rs.flatMap (recordBytes P.byteOrder)))
  count_eq : count.toNat = rs.length
  others : ListsOthers db id rs

/-- The response to a registered requester, and what the client makes of it. -/
structure UsersDelivered (P : Platform) (db : Database) (id : UserId) (written : Bytes) :
    Prop where
  records : ∃ count rs, HoldsRecords P db id written count rs
  decoded : ∀ (c : MccClient) (nameToId : UnorderedMap Bytes UserId), written <+: c.rxBuffer →
    ∃ m, c.handleRespUsers P.byteOrder nameToId = .ok (true, m) ∧ MapsOthers db id m

/-- The client's answer to an unregistered requester: `false`, and the map as it was. -/
def UsersRefused (P : Platform) (written : Bytes) : Prop :=
  ∀ (c : MccClient) (nameToId : UnorderedMap Bytes UserId), written <+: c.rxBuffer →
    c.handleRespUsers P.byteOrder nameToId = .ok (false, nameToId)

variable {db : Database} {id : UserId}

theorem listedUsers_listsOthers (P : Platform) (db : Database) (id : UserId) :
    ListsOthers db id (listedUsers P db id) where
  mem_iff := by
    intro i name
    unfold listedUsers otherUsers
    rw [List.mem_map]
    constructor
    · rintro ⟨⟨k, u⟩, hmem, heq⟩
      rw [Prod.mk.injEq] at heq
      rcases heq with ⟨rfl, rfl⟩
      rcases List.mem_filter.mp hmem with ⟨horder, hne⟩
      have hfind : db.find k = some u := (P.iter.mem_order_iff db.userMap k u).mp horder
      refine ⟨by simpa using hne, ?_⟩
      rw [Database.nameOf, hfind]
      rfl
    · rintro ⟨hne, hname⟩
      rcases Option.map_eq_some_iff.mp hname with ⟨u, hfind, rfl⟩
      have horder : (i, u) ∈ P.iter.order db.userMap :=
        (P.iter.mem_order_iff db.userMap i u).mpr hfind
      exact ⟨(i, u), List.mem_filter.mpr ⟨horder, by simpa using hne⟩, rfl⟩
  nodup := by
    unfold listedUsers otherUsers
    rw [List.map_map]
    have hsub : List.Sublist (((P.iter.order db.userMap).filter (fun it => it.1 ≠ id)).map Prod.fst)
        ((P.iter.order db.userMap).map Prod.fst) :=
      List.filter_sublist.map Prod.fst
    exact (P.iter.order_nodup db.userMap).sublist hsub

/-- A map filled from such a list, the last of several records of a name winning. -/
theorem ListsOthers.mapsOthers {rs : List (UserId × Bytes)} (h : ListsOthers db id rs) :
    MapsOthers db id (rs.foldl (fun m r => m.insert r.2 r.1) ∅) := by
  -- Whatever the order of the records, an entry comes from one of them.
  have hbears : ∀ name i, (rs.foldl (fun (m : UnorderedMap Bytes UserId) r => m.insert r.2 r.1)
      ∅)[name]? = some i → i ≠ id ∧ db.nameOf i = some name := by
    intro name i hi
    rcases UnorderedMap.getElem?_foldl_insert Prod.snd Prod.fst hi with hempty | ⟨r, hr, rfl, rfl⟩
    · simp at hempty
    · exact (h.mem_iff r.1 r.2).mp hr
  have hmem : ∀ name, name ∈ rs.foldl (fun (m : UnorderedMap Bytes UserId) r => m.insert r.2 r.1)
      ∅ ↔ ∃ i, i ≠ id ∧ db.nameOf i = some name := by
    intro name
    rw [UnorderedMap.mem_foldl_insert Prod.snd Prod.fst]
    constructor
    · rintro (hempty | ⟨r, hr, rfl⟩)
      · simp at hempty
      · exact ⟨r.1, (h.mem_iff r.1 r.2).mp hr⟩
    · rintro ⟨i, hi⟩
      exact .inr ⟨(i, name), (h.mem_iff i name).mpr hi, rfl⟩
  refine ⟨hmem, hbears, ?_⟩
  intro name i hne hname honly
  rcases (UnorderedMap.mem_iff_getElem? _ name).mp ((hmem name).mpr ⟨i, hne, hname⟩)
    with ⟨j, hj⟩
  rcases hbears name j hj with ⟨hjne, hjname⟩
  rw [hj, honly j hjne hjname]

/-- **The users a requester asks for arrive at the client**: for every database, every order of
iteration and every content of the client's map, and behind the response whatever the
receive buffer held. -/
theorem users_roundTrip {s : MccServer}
    (hnames : ∀ i name, s.db.nameOf i = some name → name.length < 2 ^ 32)
    (hfits : responseSize P s.db (.users id) ≤ s.txBuffer.length) :
    ∃ n s', s.parseRequestUsers P (P.byteOrder.toBytes id) kReqUsersPayloadLen = .ok (n, s') ∧
      s'.db = s.db ∧
      (s.db.userExists id = true →
        UsersDelivered P s.db id (s'.txBuffer.take (responseSize P s.db (.users id)))) ∧
      (s.db.userExists id = false →
        UsersRefused P (s'.txBuffer.take (responseSize P s.db (.users id)))) := by
  have hid : read32 P.byteOrder (P.byteOrder.toBytes id) = .ok id := by
    rw [← List.append_nil (P.byteOrder.toBytes id), read32_toBytes]
  have hsize := usersReply_length P s.db id
  rw [← hsize] at hfits ⊢
  refine ⟨_, _, (parseRequestUsers_eq P s id hid).trans (respond_of_le hfits),
    usersReply_db P s.db id, ?_, ?_⟩
  · intro hex
    rw [List.take_left]
    refine ⟨⟨s.db.getNumUsers - 1, listedUsers P s.db id, ?_, ?_,
      listedUsers_listsOthers P s.db id⟩, ?_⟩
    · rcases exists_usersReply_bytes P hex with ⟨len, hbytes⟩
      refine ⟨⟨.kRespUsers, len⟩, rfl, ?_⟩
      rw [hbytes, usersPayload, flatMap_userRecord]
      rfl
    · -- The count is computed apart from the loop, and is the number of its rounds.
      exact listedUsers_length hex
    · rintro c nameToId ⟨rest, hrx⟩
      have htexts : ∀ r ∈ listedUsers P s.db id, r.2.length < 2 ^ 32 := by
        intro r hr
        have hlisted := ((listedUsers_listsOthers P s.db id).mem_iff r.1 r.2).mp hr
        exact hnames r.1 r.2 hlisted.2
      exact ⟨_, handleRespUsers_usersReply hex htexts hrx.symm nameToId,
        (listedUsers_listsOthers P s.db id).mapsOthers⟩
  · intro hex
    rw [List.take_left]
    rintro c nameToId ⟨rest, hrx⟩
    exact handleRespUsers_usersReply_unknown hex hrx.symm nameToId

/-- A server with two users and a transmit buffer of 19 bytes. -/
def pair : MccServer where
  db := ((Database.empty.registerUser [65]).2.registerUser [66]).2
  txBuffer := List.replicate 19 0

theorem users_roundTrip_pair :
    ∃ n s', pair.parseRequestUsers .littleEndian (Platform.littleEndian.byteOrder.toBytes 0)
        kReqUsersPayloadLen = .ok (n, s') ∧ s'.db = pair.db ∧
      (pair.db.userExists 0 = true → UsersDelivered .littleEndian pair.db 0
        (s'.txBuffer.take (responseSize .littleEndian pair.db (.users 0)))) ∧
      (pair.db.userExists 0 = false → UsersRefused .littleEndian
        (s'.txBuffer.take (responseSize .littleEndian pair.db (.users 0)))) := by
  have hfits : responseSize .littleEndian pair.db (.users 0) ≤ pair.txBuffer.length := by
    decide +kernel
  refine users_roundTrip ?_ hfits
  intro i name hname
  simp only [pair, Database.nameOf_registerUser, Database.nameOf_empty] at hname
  split_ifs at hname with hone hzero
  · cases hname
    decide
  · cases hname
    decide

end ChatApp
