import ChatApp.ByteProtocol.Buffers
import ChatApp.ByteProtocol.Shape
import ChatApp.Server.OneQueue

set_option autoImplicit false

/-! # Requests that commute

A Send or Recv request changes one queue (`onlyQueue_reply`), and the reply to a request depends
on the users and on the one queue it drains (`reply_of_onlyQueue`). So two requests of which no
queue is both's can be handled in either order (`commutes`): the database is the same, and each
client decodes the same from its response.

The bytes sent are not quite the same. Positive Users and Recv responses are followed by five
bytes too many, which are whatever `tx_buffer_` held; the decoders do not get that far.
-/

namespace ChatApp

open Lib

/-- The queue a request touches. -/
def Request.queue? : Request → Option UserId
  | .register _ => none
  | .users _ => none
  | .send _ targetId _ => some targetId
  | .recv id => some id

namespace MccServer

open Database

variable {P : Platform} {db db' : Database} {q : Option UserId} {r r' : Request}

/-! ## What a request changes, and what it depends on -/

/-- The operation of a request is on the queue it touches. -/
theorem queue?_operation (hr : r.isRegister = false) {op : Op} (h : operation db r = some op) :
    ∃ k, op.queue? = some k ∧ r.queue? = some k := by
  cases r with
  | register username => cases hr
  | users id => cases h
  | send sourceId targetId msg =>
      rw [operation] at h
      split_ifs at h
      cases h
      exact ⟨targetId, rfl, rfl⟩
  | recv id =>
      cases h
      exact ⟨id, rfl, rfl⟩

/-- **What a request changes** is the queue it touches. -/
theorem onlyQueue_reply (hr : r.isRegister = false) : OnlyQueue r.queue? db (reply P db r).db := by
  rw [reply_db]
  cases hop : operation db r with
  | none => exact OnlyQueue.refl _ _
  | some op =>
      obtain ⟨k, hk, hrk⟩ := queue?_operation hr hop
      rw [hrk]
      exact onlyQueue_apply hk

/-- A request comes to the same operation as long as the same users exist. -/
theorem operation_of_onlyQueue (h : OnlyQueue q db db') (r : Request) :
    operation db' r = operation db r := by
  cases r with
  | send sourceId targetId msg => rw [operation, operation, h.userExists_eq, h.userExists_eq]
  | _ => rfl

/-- The users a response lists. -/
theorem listedUsers_of_onlyQueue (h : OnlyQueue q db db') (hstable : P.iter.Stable)
    (id : UserId) : listedUsers P db' id = listedUsers P db id := by
  have hnamed : ∀ k, (k, (db'.nameOf k).getD []) = (k, (db.nameOf k).getD []) := by
    intro k
    rw [h.nameOf_eq]
  have hfilter (db : Database) : listedUsers P db id
      = ((P.iter.order db.userMap).map (fun e => (e.1, e.2.username))).filter
          (fun e => e.1 ≠ id) := by
    rw [listedUsers, otherUsers, List.filter_map]
    rfl
  have horder : (P.iter.order db'.userMap).map (fun e => (e.1, e.2.username))
      = (P.iter.order db.userMap).map (fun e => (e.1, e.2.username)) :=
    calc (P.iter.order db'.userMap).map (fun e => (e.1, e.2.username))
        = ((P.iter.order db'.userMap).map Prod.fst).map
            (fun k => (k, (db'.nameOf k).getD [])) := map_order db' P.iter
      _ = ((P.iter.order db.userMap).map Prod.fst).map
            (fun k => (k, (db'.nameOf k).getD [])) := by
          rw [h.order_eq P.iter hstable]
      _ = ((P.iter.order db.userMap).map Prod.fst).map
            (fun k => (k, (db.nameOf k).getD [])) := List.map_congr_left fun k _ => hnamed k
      _ = (P.iter.order db.userMap).map (fun e => (e.1, e.2.username)) :=
          (map_order db P.iter).symm
  rw [hfilter, hfilter, horder]

/-- **What a reply depends on**: the users, and the queue the request drains. -/
theorem reply_of_onlyQueue (h : OnlyQueue q db db') (hstable : P.iter.Stable)
    (hr : r.isRegister = false) (hq : ∀ k, r.queue? = some k → q ≠ some k) :
    (reply P db' r).bytes = (reply P db r).bytes ∧ (reply P db' r).ret = (reply P db r).ret := by
  cases r with
  | register username => cases hr
  | users id =>
      have hpayload : usersPayload P db' id = usersPayload P db id := by
        rw [usersPayload, usersPayload, flatMap_otherUsers, flatMap_otherUsers,
          listedUsers_of_onlyQueue h hstable, h.getNumUsers_eq P.iter hstable]
      simp only [reply, usersReply, h.userExists_eq, h.getNumUsers_eq P.iter hstable, hpayload]
      split_ifs <;> exact ⟨rfl, rfl⟩
  | send sourceId targetId msg =>
      have heffect : (sendEffect db' sourceId targetId msg).1
          = (sendEffect db sourceId targetId msg).1 := by
        simp only [sendEffect, h.userExists_eq]
        split_ifs <;> rfl
      exact ⟨by rw [reply, reply, sendReply, sendReply, heffect], rfl⟩
  | recv id =>
      simp only [reply, recvReply, h.userExists_eq, h.queueOf_eq (hq id rfl)]
      split_ifs <;> exact ⟨rfl, rfl⟩

/-- The database after two requests is the same in either order. -/
theorem reply_db_comm (hr : r.isRegister = false) (hr' : r'.isRegister = false)
    (hq : ∀ k, r.queue? = some k → r'.queue? ≠ some k) :
    (reply P (reply P db r).db r').db = (reply P (reply P db r').db r).db := by
  have hframe : OnlyQueue r.queue? db (reply P db r).db := onlyQueue_reply hr
  have hframe' : OnlyQueue r'.queue? db (reply P db r').db := onlyQueue_reply hr'
  have hop' : operation (reply P db r).db r' = operation db r' := operation_of_onlyQueue hframe r'
  have hop : operation (reply P db r').db r = operation db r := operation_of_onlyQueue hframe' r
  have hcomm : (operation db r').toList.foldl Op.apply ((operation db r).toList.foldl Op.apply db)
      = (operation db r).toList.foldl Op.apply
          ((operation db r').toList.foldl Op.apply db) := by
    cases h : operation db r with
    | none => rfl
    | some op =>
        cases h' : operation db r' with
        | none => rfl
        | some op' =>
            obtain ⟨k, hk, hrk⟩ := queue?_operation hr h
            obtain ⟨k', hk', hrk'⟩ := queue?_operation hr' h'
            refine apply_comm hk hk' fun heq => hq k hrk ?_
            rw [hrk', heq]
  calc (reply P (reply P db r).db r').db
      = (operation db r').toList.foldl Op.apply (reply P db r).db := by rw [reply_db, hop']
    _ = (operation db r').toList.foldl Op.apply
          ((operation db r).toList.foldl Op.apply db) := by rw [reply_db P db r]
    _ = (operation db r).toList.foldl Op.apply
          ((operation db r').toList.foldl Op.apply db) := hcomm
    _ = (operation db r).toList.foldl Op.apply (reply P db r').db := by rw [reply_db P db r']
    _ = (reply P (reply P db r').db r).db := by rw [reply_db P (reply P db r').db, hop]

/-! ## Two requests -/

/-- One request: the bytes sent in response, and the server afterwards. -/
def exchange (P : Platform) (s : MccServer) (data : Bytes) : Except Fault (Bytes × MccServer) := do
  let (n, s) ← s.parse P data
  let resp ← readBytes s.txBuffer n
  return (resp, s)

/-- One request and then another: the two responses and the database. -/
def serveTwo (P : Platform) (s : MccServer) (data data' : Bytes) :
    Except Fault (Bytes × Bytes × Database) := do
  let (resp, s) ← exchange P s data
  let (resp', s) ← exchange P s data'
  return (resp, resp', s.db)

/-- Two responses to a request that a client cannot tell apart: the decoder does the same on
them, whatever is behind them in `rx_buffer_`, and the response value is the same. -/
structure Alike (P : Platform) (r : Request) (resp resp' : Bytes) : Prop where
  decoded : ∀ txBuffer rest : Bytes,
    (MccClient.mk txBuffer (resp ++ rest)).handleResp P.byteOrder r
      = (MccClient.mk txBuffer (resp' ++ rest)).handleResp P.byteOrder r
  value : resp[sizeofHeader]? = resp'[sizeofHeader]?

/-- The two orders come to the same. If one of them does not get through, neither does the
other. -/
def SameEitherWay (P : Platform) (r r' : Request) :
    Except Fault (Bytes × Bytes × Database) → Except Fault (Bytes × Bytes × Database) → Prop
  | .ok (resp, resp', db), .ok (other', other, db') =>
      Alike P r resp other ∧ Alike P r' resp' other' ∧ db = db'
  | .error e, .error e' => e = e'
  | _, _ => False

theorem Alike.refl (P : Platform) (r : Request) (resp : Bytes) : Alike P r resp resp :=
  ⟨fun _ _ => rfl, rfl⟩

/-- What a reply leaves in `tx_buffer_`. -/
def Reply.onto (R : Reply) (txBuffer : Bytes) : Bytes :=
  R.bytes ++ txBuffer.drop R.bytes.length

theorem Reply.onto_length {R : Reply} {txBuffer : Bytes} (h : R.bytes.length ≤ txBuffer.length) :
    (R.onto txBuffer).length = txBuffer.length := by
  rw [onto, List.length_append, List.length_drop]
  omega

/-- The reply and the count returned are within the buffer. -/
def Reply.FitsIn (R : Reply) (n : Nat) : Prop := max R.bytes.length R.ret ≤ n

instance (R : Reply) (n : Nat) : Decidable (R.FitsIn n) := inferInstanceAs (Decidable (_ ≤ _))

/-- An exchange goes through if the buffer holds the reply and as many bytes as are returned. -/
theorem exchange_eq {s : MccServer} {data : Bytes} (h : requestIn P data = .ok r) :
    let R := reply P s.db r
    exchange P s data =
      if R.FitsIn s.txBuffer.length then
        .ok ((R.onto s.txBuffer).take R.ret, ⟨R.db, R.onto s.txBuffer⟩)
      else .error .outOfBounds := by
  intro R
  rw [exchange, parse_eq, h, ok_bind]
  show (s.respond R >>= _) = _
  -- The reply has to be written, and then as many bytes read as are returned.
  rcases Nat.lt_or_ge s.txBuffer.length R.bytes.length with hlt | hle
  · rw [respond_of_lt hlt, error_bind, if_neg fun hfits => ?_]
    exact Nat.not_le.mpr hlt ((Nat.le_max_left _ _).trans hfits)
  · have hlen := Reply.onto_length hle
    rw [respond_of_le hle, ok_bind]
    show (readBytes (R.onto s.txBuffer) R.ret >>= _) = _
    rcases Nat.lt_or_ge s.txBuffer.length R.ret with hlt | hle'
    · rw [readBytes_of_lt (hlen ▸ hlt), error_bind, if_neg fun hfits => ?_]
      exact Nat.not_le.mpr hlt ((Nat.le_max_right _ _).trans hfits)
    · have hfits : R.FitsIn s.txBuffer.length := Nat.max_le.mpr ⟨hle, hle'⟩
      rw [readBytes_of_le (hlen ▸ hle'), ok_bind, if_pos hfits]
      rfl

/-- The count returned stays within the reply, except where the length in the header counts
the header. There the whole reply is below `2 ^ 32` bytes. -/
theorem ret_le_or_lt (hr : r.isRegister = false) :
    (reply P db r).ret ≤ (reply P db r).bytes.length ∨
      ((reply P db r).bytes.length < 2 ^ 32 ∧ ∀ id, r = .recv id → db.userExists id = true) := by
  -- The count is five more than the bytes, modulo `2 ^ 32`: without a wrap it is over.
  have hwrap (payload : Bytes) (type : PacketType) :
      let len : Length := UInt32.ofNat (sizeofHeader + payload.length)
      sizeofHeader + len.toNat ≤ (Header.bytes P.byteOrder ⟨type, len⟩ ++ payload).length ∨
        (Header.bytes P.byteOrder ⟨type, len⟩ ++ payload).length < 2 ^ 32 := by
    intro len
    rw [List.length_append, Header.bytes_length, UInt32.toNat_ofNat']
    have hheader : sizeofHeader = 5 := rfl
    omega
  cases r with
  | register username => cases hr
  | send sourceId targetId msg => exact .inl (by simp [reply, sendReply])
  | users id =>
      simp only [reply, usersReply]
      split_ifs
      · exact .inl (by simp [negativeReply])
      · exact .inl (by simp)
      · exact (hwrap _ _).imp_right fun h => ⟨h, by simp⟩
  | recv id =>
      simp only [reply, recvReply]
      split_ifs with hex
      · exact .inl (by simp [negativeReply])
      · refine (hwrap _ _).imp_right fun h => ⟨h, ?_⟩
        rintro id' ⟨⟩
        simpa using hex

/-- What a reply decodes to, whatever is behind it. -/
theorem exists_outcome (hlt : (reply P db r).bytes.length < 2 ^ 32)
    (hknown : ∀ id, r = .recv id → db.userExists id = true) :
    ∃ outcome, ∀ txBuffer rest : Bytes,
      (MccClient.mk txBuffer ((reply P db r).bytes ++ rest)).handleResp P.byteOrder r
        = .ok outcome := by
  cases r with
  | recv id => exact ⟨_, fun _ _ => handleResp_recv_cut (hknown id rfl) hlt rfl⟩
  | users id => exact ⟨_, fun _ _ => handleResp_users hlt rfl⟩
  | register username =>
      refine ⟨.register true db.nextId, fun txBuffer rest => ?_⟩
      rw [MccClient.handleResp, MccClient.handleRespRegister_of_eq (by
        simp only [reply, registerReply, List.append_assoc]
        rfl)]
      rfl
  | send sourceId targetId msg =>
      refine ⟨.send true (.ofByte (sendEffect db sourceId targetId msg).1), fun txBuffer rest => ?_⟩
      rw [MccClient.handleResp, MccClient.handleRespSend_of_eq (by
        simp only [reply, sendReply, List.append_assoc]
        rfl)]
      rfl

/-- **The bytes too many do not matter**: a client decodes the same from a reply whatever the
buffer held behind it. -/
theorem alike_onto (hr : r.isRegister = false) {R R' : Reply}
    (hR : R.bytes = (reply P db r).bytes ∧ R.ret = (reply P db r).ret)
    (hR' : R'.bytes = (reply P db r).bytes ∧ R'.ret = (reply P db r).ret)
    (txBuffer txBuffer' : Bytes) :
    Alike P r ((R.onto txBuffer).take R.ret) ((R'.onto txBuffer').take R'.ret) := by
  rw [Reply.onto, Reply.onto, hR.1, hR.2, hR'.1, hR'.2]
  rcases Nat.lt_or_ge (reply P db r).bytes.length (reply P db r).ret with hover | hle
  · -- The whole reply is sent, and the decoder stops at its end.
    obtain ⟨hlt, hknown⟩ := (ret_le_or_lt hr).resolve_left (Nat.not_le.mpr hover)
    obtain ⟨outcome, houtcome⟩ := exists_outcome hlt hknown
    have hshort : sizeofHeader < (reply P db r).bytes.length := by
      rw [reply_length]
      exact responseSize_gt P db r
    refine ⟨fun tx rest => ?_, ?_⟩
    · rw [List.take_append, List.take_append, List.take_of_length_le (Nat.le_of_lt hover),
        List.append_assoc, List.append_assoc, houtcome, houtcome]
    · rw [List.getElem?_take_of_lt (by omega), List.getElem?_take_of_lt (by omega),
        List.getElem?_append_left hshort, List.getElem?_append_left hshort]
  · rw [List.take_append_of_le_length hle, List.take_append_of_le_length hle]
    exact Alike.refl P r _

/-- Two exchanges go through if the buffer holds the reply to the first, and the reply that the
second gets from the database the first has left. -/
theorem serveTwo_eq {s : MccServer} {data data' : Bytes} (h : requestIn P data = .ok r)
    (h' : requestIn P data' = .ok r') :
    let R := reply P s.db r
    let R' := reply P R.db r'
    serveTwo P s data data' =
      if R.FitsIn s.txBuffer.length ∧ R'.FitsIn s.txBuffer.length then
        .ok ((R.onto s.txBuffer).take R.ret, (R'.onto (R.onto s.txBuffer)).take R'.ret, R'.db)
      else .error .outOfBounds := by
  intro R R'
  have hfirst : exchange P s data = _ := exchange_eq h
  rw [serveTwo, hfirst]
  by_cases hfits : R.FitsIn s.txBuffer.length
  · have hlen : (R.onto s.txBuffer).length = s.txBuffer.length :=
      Reply.onto_length ((Nat.le_max_left _ _).trans hfits)
    rw [if_pos hfits, ok_bind]
    -- The second request meets a buffer of the same size.
    have hsecond : exchange P ⟨R.db, R.onto s.txBuffer⟩ data' = _ := exchange_eq h'
    show (exchange P ⟨R.db, R.onto s.txBuffer⟩ data' >>= _) = _
    rw [hsecond, hlen]
    by_cases hfits' : R'.FitsIn s.txBuffer.length
    · rw [if_pos hfits', if_pos ⟨hfits, hfits'⟩, ok_bind]
      rfl
    · rw [if_neg hfits', if_neg fun hboth => hfits' hboth.2, error_bind]
  · rw [if_neg hfits, if_neg fun hboth => hfits hboth.1, error_bind]

/-- **Requests that do not touch the same queue commute**: handled in either order, they leave
the same database, and each client decodes the same from its response. The iteration over the
users is assumed to stay the same as long as no user is added. -/
theorem commutes (P : Platform) (hstable : P.iter.Stable) (s : MccServer) {data data' : Bytes}
    {r r' : Request} (h : requestIn P data = .ok r) (h' : requestIn P data' = .ok r')
    (hr : r.isRegister = false) (hr' : r'.isRegister = false)
    (hq : ∀ k, r.queue? = some k → r'.queue? ≠ some k) :
    SameEitherWay P r r' (serveTwo P s data data') (serveTwo P s data' data) := by
  have hq' : ∀ k, r'.queue? = some k → r.queue? ≠ some k := fun k hk' hk => hq k hk hk'
  -- Behind the other request, each gets the reply it would have got at once.
  have hframe : OnlyQueue r.queue? s.db (reply P s.db r).db := onlyQueue_reply hr
  have hframe' : OnlyQueue r'.queue? s.db (reply P s.db r').db := onlyQueue_reply hr'
  have hlater' := reply_of_onlyQueue hframe hstable hr' hq'
  have hlater := reply_of_onlyQueue hframe' hstable hr hq
  have hsame : (reply P s.db r).FitsIn s.txBuffer.length
        ∧ (reply P (reply P s.db r).db r').FitsIn s.txBuffer.length ↔
      (reply P s.db r').FitsIn s.txBuffer.length
        ∧ (reply P (reply P s.db r').db r).FitsIn s.txBuffer.length := by
    simp only [Reply.FitsIn, hlater.1, hlater.2, hlater'.1, hlater'.2]
    exact and_comm
  rw [serveTwo_eq h h', serveTwo_eq h' h]
  by_cases hfits : (reply P s.db r).FitsIn s.txBuffer.length
      ∧ (reply P (reply P s.db r).db r').FitsIn s.txBuffer.length
  · rw [if_pos hfits, if_pos (hsame.mp hfits)]
    exact ⟨alike_onto hr ⟨rfl, rfl⟩ hlater _ _, alike_onto hr' hlater' ⟨rfl, rfl⟩ _ _,
      reply_db_comm hr hr' hq⟩
  · rw [if_neg hfits, if_neg fun hfits' => hfits (hsame.mpr hfits')]
    rfl

/-- The server with the users 0 and 1. -/
def twoUsers : MccServer where
  db := ((Database.empty.registerUser [65]).2.registerUser [66]).2
  txBuffer := List.replicate 32 0

/-- A message to user 1, and a Recv request of user 0. -/
theorem commutes_send_recv :
    SameEitherWay .littleEndian (.send 0 1 [104]) (.recv 0)
      (serveTwo .littleEndian twoUsers [2, 9, 0, 0, 0, 0, 0, 0, 0, 1, 0, 0, 0, 104]
        [3, 4, 0, 0, 0, 0, 0, 0, 0])
      (serveTwo .littleEndian twoUsers [3, 4, 0, 0, 0, 0, 0, 0, 0]
        [2, 9, 0, 0, 0, 0, 0, 0, 0, 1, 0, 0, 0, 104]) :=
  commutes .littleEndian Traversal.ascending_stable twoUsers rfl rfl rfl rfl
    (fun k hk => by
      obtain rfl := Option.some.inj hk
      decide)

end MccServer

end ChatApp
