import ChatApp.ByteProtocol.Requests
import ChatApp.Server.Usernames

set_option autoImplicit false

/-! # Packets that are no request

A packet whose first byte names no request goes to `parseRequestRegisterProto`, also one of
the four response types: their cases print and fall through. There every check prints and
goes on, so the packet registers a user. No packet passes all the checks (`not_protoChecks`):
the first message takes the whole stream, and nothing is left for the one with the username.
-/

namespace ChatApp

open Lib Lib.Wire

namespace MccServer

variable (P : Platform)

/-! ## What is malformed -/

/-- The checks of `parseRequestRegisterProto`, in its order. -/
structure ProtoChecks (rxBuffer : Bytes) : Prop where
  header_parses : (Message.parseFromArray rxBuffer : Mcc.Header × Bool).2 = true
  packetType_matches :
    (parseFromIstream Mcc.Header P rxBuffer).1.packetType.getD .requestRegister = .requestRegister
  request_parses :
    (Message.parseFromArray (parseFromIstream Mcc.Header P rxBuffer).2 :
      Mcc.RequestRegister × Bool).2 = true
  has_username :
    (parseFromIstream Mcc.RequestRegister P
      (parseFromIstream Mcc.Header P rxBuffer).2).1.username.isSome = true

/-- The packet in the first `size` bytes of a block is of a response type, or of no type of the
byte protocol and fails a check. -/
def Malformed (data : Bytes) (size : Nat) : Prop :=
  match data.head?.map PacketType.ofByte with
  | some .kRespRegister | some .kRespUsers | some .kRespSend | some .kRespRecv => True
  | some (.unknown _) => ¬ProtoChecks P (data.take size)
  | _ => False

/-- A response that tells a client it is registered, as the client reads it. -/
def Acknowledges (resp : Bytes) : Prop :=
  ∃ id, (MccClient.mk [] resp).handleRespRegister P.byteOrder 0 = .ok (true, id)

/-- `parse` comes back with the database as it was, and an answer that assigns no id. -/
def LeavesAlone (s : MccServer) (data : Bytes) (size : Nat) : Prop :=
  ∃ n s', s.parseIn P data size = .ok (n, s') ∧ s'.db = s.db ∧
    ¬Acknowledges P (s'.txBuffer.take n)

/-- `parse` comes back with one more user, and tells the client that it is registered. -/
def Enrols (s : MccServer) (data : Bytes) (size : Nat) : Prop :=
  ∃ n s' username, s.parseIn P data size = .ok (n, s') ∧
    s'.db = (s.db.registerUser username).2 ∧ Acknowledges P (s'.txBuffer.take n)

/-- **No packet passes the checks.** If the header parses, it has used the stream up. -/
theorem not_protoChecks (rxBuffer : Bytes) : ¬ProtoChecks P rxBuffer := by
  intro h
  have hrest : (parseFromIstream Mcc.Header P rxBuffer).2 = [] := if_pos h.header_parses
  have hnone : (parseFromIstream Mcc.RequestRegister P []).1.username = none := rfl
  have hname := h.has_username
  rw [hrest, hnone] at hname
  cases hname

/-! ## What becomes of it -/

variable {P} {s : MccServer} {data : Bytes} {size : Nat}

/-- A malformed packet is a registration, under whatever name the protobuf parser finds. -/
theorem parseIn_malformed (hsize : size ≤ data.length) (hmal : Malformed P data size) :
    s.parseIn P data size = (Header.read P.byteOrder data >>= fun _ =>
      s.respond (registerReply P s.db (protoUsername P (data.take size)))) := by
  have hdefault : (readBytes data size >>= fun rxBuffer => s.parseRequestRegisterProto P rxBuffer)
      = s.respond (registerReply P s.db (protoUsername P (data.take size))) := by
    rw [readBytes_of_le hsize, ok_bind, parseRequestRegisterProto_eq]
  cases hread : Header.read P.byteOrder data with
  | error e => rw [parseIn, hread, error_bind, error_bind]
  | ok h =>
      -- The type in the header is the one `Malformed` looks at.
      have htype : data.head?.map PacketType.ofByte = some h.type := by
        obtain ⟨rest, hdata⟩ := Header.bytes_prefix hread
        have hcons := Header.read_bytes P.byteOrder h rest
        rw [hdata, hread, Except.ok.injEq] at hcons
        rw [← hdata, Header.bytes, List.cons_append, List.head?_cons, Option.map_some]
        exact congrArg (fun h => some h.type) hcons.symm
      rw [parseIn, hread, ok_bind, ok_bind]
      rw [Malformed, htype] at hmal
      obtain ⟨type, len⟩ := h
      cases type with
      | kRequestRegister => exact False.elim hmal
      | kRequestUsers => exact False.elim hmal
      | kRequestSend => exact False.elim hmal
      | kRequestRecv => exact False.elim hmal
      | _ => exact hdefault

@[simp] theorem registerReply_length (db : Database) (username : Bytes) :
    (registerReply P db username).bytes.length = 10 := by
  simp [registerReply, sizeofHeader]

/-- The reply to a registration is read as one. -/
theorem acknowledges_registerReply (db : Database) (username rest : Bytes) :
    Acknowledges P (((registerReply P db username).bytes ++ rest).take
      (registerReply P db username).ret) := by
  have hret : (registerReply P db username).ret = (registerReply P db username).bytes.length := by
    rw [registerReply_length]
    rfl
  have hrx : (registerReply P db username).bytes
      = Header.bytes P.byteOrder ⟨.kRespRegister, 5⟩
        ++ ([0] ++ (P.byteOrder.toBytes db.nextId ++ [])) := by
    rw [List.append_nil]
    rfl
  rw [hret, List.take_left]
  exact ⟨db.nextId, MccClient.handleRespRegister_of_eq hrx 0⟩

/-- **A malformed packet registers a user**, whatever check it fails, and is answered with the
id. -/
theorem enrols_of_malformed (hsize : size ≤ data.length) (hmal : Malformed P data size)
    (hdata : sizeofHeader ≤ data.length) (htx : 10 ≤ s.txBuffer.length) :
    s.Enrols P data size := by
  have hfits : (registerReply P s.db (protoUsername P (data.take size))).bytes.length
      ≤ s.txBuffer.length := by
    rw [registerReply_length]
    exact htx
  have hparse := parseIn_malformed (s := s) hsize hmal
  rw [Header.read_of_le hdata, ok_bind, respond_of_le hfits] at hparse
  exact ⟨_, _, _, hparse, rfl, acknowledges_registerReply s.db _ _⟩

/-- The two do not go together. -/
theorem Enrols.not_leavesAlone (h : s.Enrols P data size) : ¬s.LeavesAlone P data size := by
  rintro ⟨m, t, ht, -, hsilent⟩
  obtain ⟨n, s', username, hs', -, hack⟩ := h
  rw [hs', Except.ok.injEq, Prod.mk.injEq] at ht
  obtain ⟨rfl, rfl⟩ := ht
  exact hsilent hack

/-- **No malformed packet leaves the server alone**: where there is a header to read and room
for the response, each of them registers a user. -/
theorem never_leavesAlone (P : Platform) (s : MccServer) (data : Bytes) (size : Nat)
    (hsize : size ≤ data.length) (hmal : Malformed P data size)
    (hdata : sizeofHeader ≤ data.length) (htx : 10 ≤ s.txBuffer.length) :
    ¬s.LeavesAlone P data size ∧ s.Enrols P data size :=
  have henrols := enrols_of_malformed hsize hmal hdata htx
  ⟨henrols.not_leavesAlone, henrols⟩

/-- A bare header of the type of a Users response, and a packet of no type at all. -/
theorem never_leavesAlone_bare_headers :
    let s : MccServer := ⟨.empty, List.replicate 16 0⟩
    (¬s.LeavesAlone .littleEndian [0xF1, 0, 0, 0, 0] 5 ∧
        s.Enrols .littleEndian [0xF1, 0, 0, 0, 0] 5) ∧
      (¬s.LeavesAlone .littleEndian [9, 0, 0, 0, 0] 5 ∧
        s.Enrols .littleEndian [9, 0, 0, 0, 0] 5) :=
  ⟨never_leavesAlone .littleEndian _ _ 5 (by decide) trivial (by decide) (by decide),
    never_leavesAlone .littleEndian _ _ 5 (by decide) (not_protoChecks _ _) (by decide)
      (by decide)⟩

/-- The server is sent a bare header of the type of a Register response. -/
theorem not_leavesAlone_resp_register :
    Database.Reachable .empty ∧ Malformed .littleEndian [0xF0, 0, 0, 0, 0] 5 ∧
      ¬(MccServer.mk .empty (List.replicate 16 0)).LeavesAlone .littleEndian
        [0xF0, 0, 0, 0, 0] 5 := by
  refine ⟨.empty, trivial, ?_⟩
  rintro ⟨n, s', hparse, hsame, -⟩
  have hdb : ((MccServer.mk .empty (List.replicate 16 0)).parseIn .littleEndian
      [0xF0, 0, 0, 0, 0] 5).map (fun out => out.2.db) = .ok (Database.empty.registerUser []).2 := by
    rfl
  rw [hparse, Except.map, Except.ok.injEq, hsame] at hdb
  exact Database.registerUser_ne .empty [] hdb.symm

end MccServer

end ChatApp
