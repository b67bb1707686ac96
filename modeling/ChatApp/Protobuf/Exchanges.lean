import ChatApp.Client.Directory
import ChatApp.Protobuf.Segmentation
import ChatApp.Server.Ids

set_option autoImplicit false

/-! # Exchanges, byte for byte

A request is built, written to a transmit buffer, sent, read from the server's receive buffer and
answered, and the response goes the same way back. A request comes through as it was built, also
if what was typed is not UTF-8 (`App.parse_requestPacket`). A Users response does so up to and
including the first name that is not UTF-8: there the parse stops, and who is listed behind that
name is lost (`App.parse_usersResponse`).

The poll for online users keeps its receive buffer. The lists of the server only get longer, so
behind a response the buffer is still zero (`App.PollBuffer.zeros`).
-/

namespace ChatApp

open Lib Lib.Wire Lib.Wire.Message

/-! ## Requests -/

/-- **A request is read back as it was built**, also if what was typed is not UTF-8: the string
is the last thing in it. -/
theorem App.parse_requestPacket {r : Request}
    (hsize : byteSizeLong (App.requestPacket r) < 2 ^ 35) (n : Nat) :
    (parseFromArray (serialize (App.requestPacket r) ++ List.replicate n 0)
      : Mcc.Packet × Bool).1 = App.requestPacket r := by
  by_cases hutf8 : r.Utf8
  · exact (Mcc.Packet.sound (App.requestPacket_wellFormed hutf8) hsize).parse_zeros n
  · cases r with
    | register username =>
        have hinvalid : ¬Mcc.Utf8Opt (some username) := fun h => hutf8 (h username rfl)
        have hmem := (App.registerRequest username).mem_fields.2.1 _ rfl
        have hread := Mcc.RequestRegister.parse_invalid (m := { username := some username })
          hinvalid (lt_of_le_of_lt (toField_size_le hmem) hsize)
        refine Mcc.Packet.parse_of_member (by rintro t ⟨⟩; rfl)
          (by norm_num : 0 < 2 ∧ 2 < 2 ^ 29) rfl ?_ hsize _
        show Mcc.onMember Mcc.Packet.reqReg _ _ _ = _
        simp only [toField, Mcc.onMember, onMessage, Option.getD_none, hread]
        rfl
    | users id => exact absurd trivial hutf8
    | send sourceId targetId msg =>
        have hinvalid : ¬Mcc.Utf8Opt (some msg) := fun h => hutf8 (h msg rfl)
        have hmem := (App.sendRequest sourceId targetId msg).mem_fields.2.2.2.1 _ rfl
        have hread := Mcc.RequestSend.parse_invalid
          (m := { sourceId := some sourceId, targetId := some targetId, message := some msg })
          hinvalid (lt_of_le_of_lt (toField_size_le hmem) hsize)
        refine Mcc.Packet.parse_of_member (by rintro t ⟨⟩; rfl)
          (by norm_num : 0 < 4 ∧ 4 < 2 ^ 29) rfl ?_ hsize _
        show Mcc.onMember Mcc.Packet.reqSend _ _ _ = _
        simp only [toField, Mcc.onMember, onMessage, Option.getD_none, hread]
        rfl
    | recv id => exact absurd trivial hutf8

theorem App.serialize_requestPacket_ne_nil (r : Request) :
    serialize (App.requestPacket r) ≠ [] := by
  cases r <;> exact Mcc.Packet.serialize_ne_nil rfl

/-- A packet that fits is sent whole. A larger one is not written, and the send reads on behind
the buffer. -/
theorem App.transmit_eq (reqPacket : Mcc.Packet) (txBuffer : Bytes) :
    (App.transmit reqPacket txBuffer).1
      = if byteSizeLong reqPacket ≤ txBuffer.length then .ok (serialize reqPacket)
        else .error .outOfBounds := by
  split_ifs with hle
  · exact ((App.sentWhole_iff reqPacket txBuffer).mpr hle).2
  · rw [App.transmit, serializeToArray, if_neg hle]
    exact readBytes_of_lt (not_le.mp hle)

theorem App.transmit_length (reqPacket : Mcc.Packet) (txBuffer : Bytes) :
    (App.transmit reqPacket txBuffer).2.length = txBuffer.length := by
  rw [App.transmit, serializeToArray]
  split_ifs with hfits
  · have hlen : (serialize reqPacket).length = byteSizeLong reqPacket := rfl
    simp only [List.length_append, List.length_drop]
    omega
  · rfl

namespace ServerApp

/-- A connection over which a request comes in one piece: the database, and the bytes of the
response. What is sent from behind a buffer ends it, at either end. -/
def deliver (iter : Traversal UserId UserMetadata) (db : Database) (sent : Except Fault Bytes) :
    Except Unit (Database × Bytes) :=
  match sent with
  | .error _ => .error ()
  | .ok request =>
      match handleRequest iter db [.data request] with
      | none => .error ()
      | some h =>
          match h.sent with
          | .error _ => .error ()
          | .ok response => .ok (h.db, response)

variable {iter iter' : Traversal UserId UserMetadata} {db db' : Database} {txBuffer : Bytes}

/-- A request that fits the transmit buffer is sent, and is the packet the server acts on. -/
theorem deliver_request {r : Request} (htx : txBuffer.length = App.bufferSize)
    (hfits : byteSizeLong (App.requestPacket r) ≤ App.bufferSize) {response : Bytes}
    (hsent : (handlePacket iter db (App.requestPacket r)).sent = .ok response) :
    deliver iter db (App.transmit (App.requestPacket r) txBuffer).1
      = .ok ((handlePacket iter db (App.requestPacket r)).db, response) := by
  have hwhole := (App.sentWhole_iff (App.requestPacket r) txBuffer).mpr (htx ▸ hfits)
  have hlen : (serialize (App.requestPacket r)).length ≤ bufferSize :=
    le_trans hfits (by decide)
  have hhandle : handleRequest iter db [.data (serialize (App.requestPacket r))]
      = some (handlePacket iter db (App.requestPacket r)) := by
    rw [handleRequest_eq, received_eq, arrived_whole (App.serialize_requestPacket_ne_nil r) hlen,
      Option.map_some, App.parse_requestPacket (lt_of_le_of_lt hfits (by decide)), Option.map_some]
  simp only [deliver, hwhole.2, hhandle, hsent]

theorem deliver_register {username : Bytes} (htx : txBuffer.length = App.bufferSize)
    (hfits : byteSizeLong (App.registerRequest username) ≤ App.bufferSize) :
    deliver iter db (App.transmit (App.registerRequest username) txBuffer).1
      = .ok ((db.registerUser username).2, serialize (registerResponse db.nextId)) := by
  have hanswer : answer iter db (App.requestPacket (.register username))
      = some (registerResponse db.nextId, (db.registerUser username).2) := rfl
  have hsize : byteSizeLong (registerResponse db.nextId) ≤ bufferSize := by
    have hid := varintSize_le db.nextId.toNat_lt
    rw [registerResponse_size, bufferSize]
    omega
  have hdeliver := deliver_request (r := .register username) htx hfits
    (sent_of_some iter db hanswer hsize)
  rw [handlePacket_of_some iter db hanswer] at hdeliver
  exact hdeliver

theorem deliver_users {id : UserId} (htx : txBuffer.length = App.bufferSize)
    (hfits : byteSizeLong (usersResponse iter db id) ≤ App.bufferSize) :
    deliver iter db (App.transmit (App.usersRequest id) txBuffer).1
      = .ok (db, serialize (usersResponse iter db id)) := by
  have hanswer : answer iter db (App.requestPacket (.users id))
      = some (usersResponse iter db id, db) := rfl
  have hdeliver := deliver_request (r := .users id) htx
    ((App.requestPacket_fits_iff (.users id)).mpr trivial)
    (sent_of_some iter db hanswer (le_trans hfits (by decide)))
  rw [handlePacket_of_some iter db hanswer] at hdeliver
  exact hdeliver

/-- A Send request is decoded and dropped. -/
theorem deliver_send {id targetId : UserId} {msg : Bytes} (htx : txBuffer.length = App.bufferSize)
    (hfits : byteSizeLong (App.sendRequest id targetId msg) ≤ App.bufferSize) :
    deliver iter db (App.transmit (App.sendRequest id targetId msg) txBuffer).1 = .ok (db, []) := by
  have hanswer : answer iter db (App.requestPacket (.send id targetId msg)) = none := rfl
  have hnone := handlePacket_of_none iter db hanswer
  have hsent : (handlePacket iter db (App.requestPacket (.send id targetId msg))).sent
      = .ok [] := by
    rw [hnone]
    rfl
  have hdeliver := deliver_request (r := .send id targetId msg) htx hfits hsent
  rw [hnone] at hdeliver
  exact hdeliver

/-! ## Users responses -/

/-- The users a response to `id` is about, in the order in which the map is walked. -/
def others (iter : Traversal UserId UserMetadata) (db : Database) (id : UserId) :
    List (UserId × UserMetadata) :=
  (iter.order db.userMap).filter (fun it => it.1 ≠ id)

/-- As far as a list is read: up to and including the first name that is not UTF-8. -/
def legible : List (UserId × UserMetadata) → List (UserId × UserMetadata)
  | [] => []
  | it :: rest => if Utf8.valid it.2.username then it :: legible rest else [it]

/-- What a client reads from the response to `id`. -/
def usersRead (iter : Traversal UserId UserMetadata) (db : Database) (id : UserId) :
    Mcc.Packet where
  hdr := some { packetType := some .respUsers }
  respUsers :=
    if !db.userExists id then some { respValue := some 1 }
    else some
      { respValue := some 0
        onlineUsers := (legible (others iter db id)).map onlineUser }

theorem mem_others {it : UserId × UserMetadata} {id : UserId} :
    it ∈ others iter db id ↔ db.find it.1 = some it.2 ∧ it.1 ≠ id := by
  rw [others, List.mem_filter, iter.mem_order_iff, decide_eq_true_eq]
  rfl

/-- No user is listed twice. -/
theorem nodup_others (iter : Traversal UserId UserMetadata) (db : Database) (id : UserId) :
    ((others iter db id).map Prod.fst).Nodup :=
  (iter.order_nodup db.userMap).sublist (List.filter_sublist.map Prod.fst)

theorem legible_sublist (l : List (UserId × UserMetadata)) : (legible l).Sublist l := by
  induction l with
  | nil => exact List.Sublist.refl []
  | cons it rest ih =>
      unfold legible
      split_ifs
      · exact ih.cons_cons it
      · exact List.singleton_sublist.mpr List.mem_cons_self

/-- **A list is read to its end exactly if every name but the last is UTF-8.** -/
theorem legible_eq_self_iff (l : List (UserId × UserMetadata)) :
    legible l = l ↔ ∀ it ∈ l.dropLast, Utf8.valid it.2.username = true := by
  induction l with
  | nil => simp [legible]
  | cons it rest ih =>
      cases rest with
      | nil => simp [legible]
      | cons it' rest =>
          rw [List.dropLast_cons_cons, List.forall_mem_cons, ← ih, legible]
          by_cases hvalid : Utf8.valid it.2.username = true
          · simp [hvalid]
          · simp [hvalid]

/-- Behind the first name that is not UTF-8 nothing is read. -/
theorem legible_append {init rest : List (UserId × UserMetadata)} {x : UserId × UserMetadata}
    (hinit : ∀ it ∈ init, Utf8.valid it.2.username = true)
    (hx : ¬Utf8.valid x.2.username = true) : legible (init ++ x :: rest) = init ++ [x] := by
  induction init with
  | nil => simp [legible, hx]
  | cons it init ih =>
      obtain ⟨hit, hinit⟩ := List.forall_mem_cons.mp hinit
      rw [List.cons_append, legible, if_pos hit, ih hinit, List.cons_append]

theorem utf8Opt_onlineUser (it : UserId × UserMetadata) :
    Mcc.Utf8Opt (onlineUser it).username ↔ Utf8.valid it.2.username = true := by
  constructor
  · intro h
    exact h _ rfl
  · rintro h bs ⟨⟩
    exact h

/-- **What a client reads from a Users response**, where its receive buffer is zero behind it. -/
theorem parse_usersResponse {id : UserId}
    (hsize : byteSizeLong (usersResponse iter db id) < 2 ^ 35) (n : Nat) :
    (parseFromArray (serialize (usersResponse iter db id) ++ List.replicate n 0)
      : Mcc.Packet × Bool).1 = usersRead iter db id := by
  have hanswer : answer iter db (App.requestPacket (.users id))
      = some (usersResponse iter db id, db) := rfl
  by_cases hex : db.userExists id = true
  · have hlisted : listedUsers (usersResponse iter db id)
        = (others iter db id).map onlineUser := by
      simp [listedUsers, usersResponse, hex, others]
    by_cases hvalid : ∀ it ∈ others iter db id, Utf8.valid it.2.username = true
    · have hwf := answer_wellFormed hanswer (by
        rw [hlisted, List.forall_mem_map]
        exact fun it hit => (utf8Opt_onlineUser it).mpr (hvalid it hit))
      rw [(Mcc.Packet.sound hwf hsize).parse_zeros, usersRead, (legible_eq_self_iff _).mpr
        fun it hit => hvalid it (List.dropLast_subset _ hit)]
      rfl
    · obtain ⟨init, x, rest, hlist, hinit, hx⟩ := exists_first hvalid
      have hread : usersRead iter db id
          = { hdr := some { packetType := some .respUsers }
              respUsers := some
                { respValue := some 0, onlineUsers := (init ++ [x]).map onlineUser } } := by
        simp [usersRead, hex, hlist, legible_append hinit hx]
      have hresp : usersResponse iter db id
          = { hdr := some { packetType := some .respUsers }
              respUsers := some
                { respValue := some 0, onlineUsers := (init ++ x :: rest).map onlineUser } } := by
        simp only [usersResponse, hex]
        rw [← hlist]
        rfl
      rw [hresp] at hsize ⊢
      have hmem := (Mcc.Packet.mem_fields
        { hdr := some { packetType := some .respUsers }
          respUsers := some
            { respValue := some 0, onlineUsers := (init ++ x :: rest).map onlineUser } })
        |>.2.2.2.2.2.2.1 _ rfl
      have husers : (init ++ x :: rest).map onlineUser
          = init.map onlineUser ++ onlineUser x :: rest.map onlineUser := by
        rw [List.map_append, List.map_cons]
      have hmerge := Mcc.RespUsers.merge_invalid
        (m := { respValue := some 0, onlineUsers := (init ++ x :: rest).map onlineUser }) husers
        (List.forall_mem_map.mpr fun it hit => (utf8Opt_onlineUser it).mpr (hinit it hit))
        (mt (utf8Opt_onlineUser x).mp hx) (lt_of_le_of_lt (toField_size_le hmem) hsize)
      rw [Mcc.Packet.parse_invalid (by rintro t ⟨⟩; rfl) hmerge hsize, hread]
      simp only [List.map_append, List.map_cons, List.map_nil]
  · have hnone : listedUsers (usersResponse iter db id) = [] := by
      simp [listedUsers, usersResponse, hex]
    have hwf := answer_wellFormed hanswer (by rw [hnone]; exact List.forall_mem_nil _)
    rw [(Mcc.Packet.sound hwf hsize).parse_zeros]
    simp only [usersResponse, usersRead, hex, Bool.not_false, if_true]

section Read

variable {id : UserId} (hex : db.userExists id = true)
include hex

theorem positive_usersRead : Positive (usersRead iter db id) := by
  simp [Positive, usersRead, hex]

theorem lists_usersRead {name : Bytes} {k : UserId} :
    Lists (usersRead iter db id) name k ↔
      ∃ it ∈ legible (others iter db id), it.2.username = name ∧ it.1 = k := by
  have husers : ((usersRead iter db id).respUsers.getD {}).onlineUsers
      = (legible (others iter db id)).map onlineUser := by
    simp [usersRead, hex]
  rw [Lists, husers]
  constructor
  · rintro ⟨user, huser, hname, hid⟩
    obtain ⟨it, hit, rfl⟩ := List.mem_map.mp huser
    exact ⟨it, hit, hname, hid⟩
  · rintro ⟨it, hit, hname, hid⟩
    exact ⟨onlineUser it, List.mem_map.mpr ⟨it, hit, rfl⟩, hname, hid⟩

/-- Who is read is a user of the server other than the one who asked. -/
theorem nameOf_of_newNameToId {name : Bytes} {k : UserId}
    (h : (App.newNameToId (usersRead iter db id))[name]? = some k) :
    db.nameOf k = some name ∧ k ≠ id := by
  obtain ⟨it, hit, rfl, rfl⟩ := (lists_usersRead hex).mp (lists_of_newNameToId h)
  obtain ⟨hfind, hne⟩ := mem_others.mp ((legible_sublist _).subset hit)
  exact ⟨by rw [Database.nameOf, hfind, Option.map_some], hne⟩

/-- A name that is read gets into the map. -/
theorem newNameToId_of_mem_legible {it : UserId × UserMetadata}
    (hit : it ∈ legible (others iter db id)) :
    ∃ k, (App.newNameToId (usersRead iter db id))[it.2.username]? = some k :=
  newNameToId_of_lists ((lists_usersRead hex).mpr ⟨it, hit, rfl, rfl⟩)

end Read

/-- The response to a registration. -/
theorem registerUser_of_response (app : App) (username : Bytes) (id : UserId) :
    (app.registerUser username [.data (serialize (registerResponse id))]).2
      = some (({ app with username := username } : App).acceptRegistration
          (registerResponse id)) := by
  have hid := varintSize_le id.toNat_lt
  have hle : byteSizeLong (registerResponse id) ≤ App.bufferSize := by
    rw [registerResponse_size, App.bufferSize]
    omega
  have hne : serialize (registerResponse id) ≠ [] := Mcc.Packet.serialize_ne_nil rfl
  have hwf : (registerResponse id).WellFormed :=
    ⟨Mcc.Header.canonical_of_type rfl, by rintro x ⟨⟩, by rintro x ⟨⟩, by rintro x ⟨⟩,
      by rintro x ⟨⟩⟩
  have hread := (Mcc.Packet.sound hwf (lt_of_le_of_lt hle (by decide))).parse_zeros
    (App.bufferSize - (serialize (registerResponse id)).length)
  rw [App.registerUser, App.receive, receiveLoop_eq, arrived_whole hne hle]
  simp only [Option.map_some, Option.bind_eq_bind, Option.bind_some, List.drop_replicate, hread,
    Option.pure_def]

/-! ## Lists get longer -/

/-- What a list takes up depends on the ids and the names in it. -/
theorem listSize_eq_sum {id : UserId} (hex : db.userExists id = true) :
    listSize iter db id
      = (((others iter db id).map fun it => (it.1, it.2.username)).map fun e =>
          delimSize (varintSize e.1.toNat + delimSize e.2.length)).sum := by
  rw [listSize, if_pos hex, List.map_map]
  rfl

/-- With more users the list is longer, in whatever orders the maps are walked. -/
theorem listSize_mono (h : db.Extends db') (id : UserId) :
    listSize iter db id ≤ listSize iter' db' id := by
  by_cases hex : db.userExists id = true
  · rw [listSize_eq_sum hex, listSize_eq_sum (h.userExists hex)]
    have hnodup : ((others iter db id).map fun it => (it.1, it.2.username)).Nodup := by
      refine List.Nodup.of_map Prod.fst ?_
      rw [List.map_map]
      exact nodup_others iter db id
    have hsubset : ((others iter db id).map fun it => (it.1, it.2.username))
        ⊆ (others iter' db' id).map fun it => (it.1, it.2.username) := by
      intro e he
      obtain ⟨⟨k, u⟩, hit, rfl⟩ := List.mem_map.mp he
      obtain ⟨hfind, hne⟩ := mem_others.mp hit
      have hname := h k u.username (by rw [Database.nameOf, hfind, Option.map_some])
      obtain ⟨u', hu', hsame⟩ := Option.map_eq_some_iff.mp hname
      exact List.mem_map.mpr ⟨(k, u'), mem_others.mpr ⟨hu', hne⟩, by rw [hsame]⟩
    obtain ⟨l, hperm, hsub⟩ := hnodup.subperm hsubset
    rw [← (hperm.map _).sum_eq]
    exact (hsub.map _).sum_le_sum fun _ _ => Nat.zero_le _
  · rw [listSize, if_neg hex]
    exact Nat.zero_le _

theorem usersResponse_size_mono (h : db.Extends db') (id : UserId) :
    byteSizeLong (usersResponse iter db id) ≤ byteSizeLong (usersResponse iter' db' id) := by
  have hlist : listSize iter db id ≤ listSize iter' db' id := listSize_mono h id
  rw [usersResponse_size, usersResponse_size]
  exact Nat.add_le_add_left (delimSize_mono (Nat.add_le_add_left hlist 2)) 4

end ServerApp

/-! ## The receive buffer of the poll -/

namespace App

/-- The receive buffer of the poll for online users of user `id`: cleared at first, and after the
responses that a server with the users of `db` or fewer has sent. -/
inductive PollBuffer (id : UserId) : Database → Bytes → Prop
  | cleared (db : Database) : PollBuffer id db (List.replicate bufferSize 0)
  | received {db : Database} {rxBuffer : Bytes} (iter : Traversal UserId UserMetadata)
      (hfits : byteSizeLong (ServerApp.usersResponse iter db id) ≤ bufferSize)
      (h : PollBuffer id db rxBuffer) :
      PollBuffer id db (serialize (ServerApp.usersResponse iter db id)
        ++ rxBuffer.drop (byteSizeLong (ServerApp.usersResponse iter db id)))
  | grown {db db' : Database} {rxBuffer : Bytes} (hext : db.Extends db')
      (h : PollBuffer id db rxBuffer) : PollBuffer id db' rxBuffer

variable {db : Database} {id : UserId} {rxBuffer : Bytes}

/-- **Behind a response the buffer is zero**: no earlier response was longer. -/
theorem PollBuffer.zeros (h : PollBuffer id db rxBuffer) (iter : Traversal UserId UserMetadata) :
    rxBuffer.drop (byteSizeLong (ServerApp.usersResponse iter db id))
      = List.replicate (bufferSize - byteSizeLong (ServerApp.usersResponse iter db id)) 0 := by
  induction h generalizing iter with
  | cleared db => exact List.drop_replicate
  | @received db rxBuffer iter' hfits h ih =>
      -- The response takes up as much in one order as in another.
      have hsame : byteSizeLong (ServerApp.usersResponse iter db id)
          = byteSizeLong (ServerApp.usersResponse iter' db id) :=
        Nat.le_antisymm (ServerApp.usersResponse_size_mono (.refl db) id)
          (ServerApp.usersResponse_size_mono (.refl db) id)
      rw [hsame, ← ih iter']
      exact List.drop_left
  | @grown db db' rxBuffer hext h ih =>
      have hle : byteSizeLong (ServerApp.usersResponse iter db id)
          ≤ byteSizeLong (ServerApp.usersResponse iter db' id) :=
        ServerApp.usersResponse_size_mono hext id
      obtain ⟨more, hmore⟩ := Nat.exists_eq_add_of_le hle
      rw [hmore, ← List.drop_drop, ih iter, List.drop_replicate]
      congr 1
      omega

/-- **A round of the poll**: the response is read as far as its names are UTF-8, and the buffer
is again one of a poll. -/
theorem PollBuffer.receive (h : PollBuffer id db rxBuffer) (iter : Traversal UserId UserMetadata)
    (hfits : byteSizeLong (ServerApp.usersResponse iter db id) ≤ bufferSize) :
    ∃ rxBuffer', App.receive rxBuffer [.data (serialize (ServerApp.usersResponse iter db id))]
        = some (ServerApp.usersRead iter db id, rxBuffer') ∧ PollBuffer id db rxBuffer' := by
  have harrived := arrived_whole (Mcc.Packet.serialize_ne_nil rfl :
    serialize (ServerApp.usersResponse iter db id) ≠ []) hfits
  refine ⟨_, ?_, h.received iter hfits⟩
  have hread := ServerApp.parse_usersResponse (lt_of_le_of_lt hfits (by decide))
    (bufferSize - byteSizeLong (ServerApp.usersResponse iter db id))
  rw [← h.zeros iter] at hread
  rw [App.receive, receiveLoop_eq, harrived]
  exact congrArg (fun p => some (p, _)) hread

end App

end ChatApp
