import ChatApp.ByteProtocol.System
import ChatApp.Client.App
import ChatApp.Lib.Run
import ChatApp.Server.ServerApp

set_option autoImplicit false

/-! # The protobuf server beside the byte server

Both servers are started on one database and fed the same Register, Users and Recv requests,
and messages are queued in both. The byte server reports in the bytes it writes, the protobuf
server in the packet it builds.

On equal databases the two report the same. They leave equal databases as well, with one
exception: the byte server clears the queue it has handed out, the protobuf server does not
(`Servers.agree_iff_quiet`). So over a run they agree exactly as long as nobody who has
messages waiting asks for them (`Servers.agreement_iff`).
-/

namespace ChatApp

open Lib Lib.Wire Lib.Wire.Message

/-! ## Reports -/

/-- What a response says, in either protocol. -/
structure Report where
  respValue : UInt32
  assignedId : Option UserId := none
  users : List (UserId × Bytes) := []
  messages : List Msg := []
  deriving Repr, DecidableEq

/-- Two responses say the same; the users come in no particular order. -/
structure Report.Same (r r' : Report) : Prop where
  respValue : r.respValue = r'.respValue
  assignedId : r.assignedId = r'.assignedId
  users : r.users.Perm r'.users
  messages : r.messages = r'.messages

/-- The report in the bytes the byte server wrote for a request. A negative response holds
only the response value. -/
def readReport (bo : ByteOrder) (r : Request) (written : Bytes) : Except Fault Report := do
  let payload := written.drop sizeofHeader
  let respValue ← read8 payload
  let payload := payload.drop 1
  match r with
  | .register _ =>
      let id ← read32 bo payload
      return { respValue := respValue.toUInt32, assignedId := some id }
  | .users _ =>
      if respValue ≠ 0 then return { respValue := respValue.toUInt32 }
      let numUsers ← read32 bo payload
      let users ← MccClient.readRecords bo (fun us id name => us ++ [(id, name)])
        numUsers.toNat (payload.drop 4) []
      return { respValue := respValue.toUInt32, users := users }
  | .recv _ =>
      if respValue ≠ 0 then return { respValue := respValue.toUInt32 }
      let numMessages ← read32 bo payload
      let messages ← MccClient.readRecords bo (fun msgs id msg => msgs ++ [⟨id, msg⟩])
        numMessages.toNat (payload.drop 4) []
      return { respValue := respValue.toUInt32, messages := messages }
  | .send _ _ _ => return { respValue := respValue.toUInt32 }

/-- The report in the packet the protobuf server built for a request. -/
def packetReport (r : Request) (resp : Mcc.Packet) : Report :=
  match r with
  | .register _ =>
      let respReg := resp.respReg.getD {}
      { respValue := respReg.respValue.getD 0, assignedId := respReg.assignedId }
  | .users _ =>
      let respUsers := resp.respUsers.getD {}
      { respValue := respUsers.respValue.getD 0
        users := respUsers.onlineUsers.map (fun u => (u.userId.getD 0, u.username.getD [])) }
  | .recv _ =>
      let respRecv := resp.respRecv.getD {}
      { respValue := respRecv.respValue.getD 0
        messages := respRecv.messages.map (fun m => ⟨m.userId.getD 0, m.message.getD []⟩) }
  | .send _ _ _ => { respValue := (resp.respSend.getD {}).respValue.getD 0 }

/-- What there is to report on a database. -/
def reportOf (iter : Traversal UserId UserMetadata) (db : Database) : Request → Report
  | .register _ => { respValue := 0, assignedId := some db.nextId }
  | .users id =>
      if db.userExists id then
        { respValue := 0
          users := ((iter.order db.userMap).filter (fun it => it.1 ≠ id)).map
            (fun it => (it.1, it.2.username)) }
      else { respValue := 1 }
  | .recv id =>
      if db.userExists id then { respValue := 0, messages := db.queueOf id }
      else { respValue := 1 }
  | .send sourceId targetId msg =>
      { respValue := (MccServer.sendEffect db sourceId targetId msg).1.toUInt32 }

/-- The order of iteration does not matter. -/
theorem reportOf_same (iter iter' : Traversal UserId UserMetadata) (db : Database)
    (r : Request) : (reportOf iter db r).Same (reportOf iter' db r) := by
  cases r with
  | users id =>
      simp only [reportOf]
      by_cases hex : db.userExists id = true
      · rw [if_pos hex, if_pos hex]
        refine ⟨rfl, rfl, ?_, rfl⟩
        apply List.Perm.map
        apply List.Perm.filter
        exact (iter.perm db.userMap).trans (iter'.perm db.userMap).symm
      · rw [if_neg hex, if_neg hex]
        exact ⟨rfl, rfl, List.Perm.refl _, rfl⟩
  | register username => exact ⟨rfl, rfl, List.Perm.refl _, rfl⟩
  | recv id => exact ⟨rfl, rfl, List.Perm.refl _, rfl⟩
  | send sourceId targetId msg => exact ⟨rfl, rfl, List.Perm.refl _, rfl⟩

/-! ## The two servers -/

structure Servers where
  byte : MccServer
  proto : Database
  deriving DecidableEq

/-- What both servers are fed: a request, as a decoded packet for the one and as a payload for
the other, or a message to be queued. -/
inductive Feed
  | request (packet : Mcc.Packet) (r : Request)
  | queue (recepientId : UserId) (m : Msg)
  deriving Repr, DecidableEq

/-- The packet has the request's submessage and the fields in it, and a payload can hold the
request. -/
def Feed.Valid : Feed → Prop
  | .request packet (.register username) =>
      packet.reqReg.bind (·.username) = some username ∧ username.length < 2 ^ 32
  | .request packet (.users id) => packet.reqUsers.bind (·.requestorId) = some id
  | .request packet (.recv id) => packet.reqRecv.bind (·.requestorId) = some id
  | .request _ (.send _ _ _) => False
  | .queue _ _ => True

/-- What a step leaves to compare: the reports on a request, and the databases. -/
structure Observation where
  byteReport : Option Report
  protoReport : Option Report
  byteDb : Database
  protoDb : Database
  deriving DecidableEq

namespace Servers

/-- The parser of the byte server for a request, on the payload of the request. -/
def parseRequest (P : Platform) (s : MccServer) : Request → Except Fault (Nat × MccServer)
  | .register username => s.parseRequestRegister P username (UInt32.ofNat username.length)
  | .users id => s.parseRequestUsers P (P.byteOrder.toBytes id) kReqUsersPayloadLen
  | .recv id => s.parseRequestRecv P (P.byteOrder.toBytes id) kReqRecvPayloadLen
  | .send sourceId targetId msg =>
      s.parseRequestSend P
        (P.byteOrder.toBytes sourceId ++ (P.byteOrder.toBytes targetId ++ msg))
        (UInt32.ofNat (8 + msg.length))

/-- The handler of the protobuf server for a request: the response it builds, and the
database. There is none for a Send request. -/
def answerRequest (iter : Traversal UserId UserMetadata) (db : Database) (packet : Mcc.Packet) :
    Request → Option (Mcc.Packet × Database)
  | .register _ => ServerApp.answerRegister db packet
  | .users _ => ServerApp.answerUsers iter db packet
  | .recv _ => ServerApp.answerRecv db packet
  | .send _ _ _ => none

/-- One step of both servers. It faults if the byte server's response does not fit its
transmit buffer. -/
def step (P : Platform) (iter : Traversal UserId UserMetadata) (s : Servers) :
    Feed → Except Fault (Servers × Observation)
  | .request packet r => do
      let (_, byte) ← parseRequest P s.byte r
      let byteReport := (readReport P.byteOrder r byte.txBuffer).toOption
      let answer := answerRequest iter s.proto packet r
      let proto := (answer.map Prod.snd).getD s.proto
      let protoReport := answer.map (fun a => packetReport r a.1)
      return (⟨byte, proto⟩, ⟨byteReport, protoReport, byte.db, proto⟩)
  | .queue recepientId m =>
      let byte := { s.byte with db := (s.byte.db.queueMsg recepientId m).2 }
      let proto := (s.proto.queueMsg recepientId m).2
      return (⟨byte, proto⟩, ⟨none, none, byte.db, proto⟩)

/-- The servers agree on a step: both report on a request, and the same, and their databases
are equal. -/
def Agree (feed : Feed) (o : Observation) : Prop :=
  o.byteDb = o.protoDb ∧
    match feed with
    | .request _ _ => ∃ r r', o.byteReport = some r ∧ o.protoReport = some r' ∧ r.Same r'
    | .queue _ _ => True

/-- Nobody asks for messages that wait. -/
def Quiet (db : Database) : Feed → Prop
  | .request _ (.recv id) => db.queueOf id = []
  | _ => True

instance (db : Database) (feed : Feed) : Decidable (Quiet db feed) :=
  match feed with
  | .request _ (.recv _) => inferInstanceAs (Decidable (_ = _))
  | .request _ (.register _) => .isTrue trivial
  | .request _ (.users _) => .isTrue trivial
  | .request _ (.send _ _ _) => .isTrue trivial
  | .queue _ _ => .isTrue trivial

/-! ## The byte server's report -/

/-- The names in a database are shorter than a length field can express. -/
def ShortNames (db : Database) : Prop := ∀ id u, db.find id = some u → u.username.length < 2 ^ 32

theorem readReport_users_positive (bo : ByteOrder) (h : Header) (id : UserId) (payload : Bytes) :
    readReport bo (.users id) (h.bytes bo ++ ([0] ++ payload))
      = (read32 bo payload >>= fun n =>
          MccClient.readRecords bo (fun us id name => us ++ [(id, name)]) n.toNat
            (payload.drop 4) [] >>= fun users => .ok { respValue := 0, users := users }) := by
  simp only [readReport, List.drop_left' (h.bytes_length bo), List.singleton_append, read8_cons,
    ok_bind, List.drop_one, List.tail_cons, ne_eq, not_true_eq_false, if_false, pure_eq_ok]
  rfl

theorem readReport_recv_positive (bo : ByteOrder) (h : Header) (id : UserId) (payload : Bytes) :
    readReport bo (.recv id) (h.bytes bo ++ ([0] ++ payload))
      = (read32 bo payload >>= fun n =>
          MccClient.readRecords bo (fun msgs id msg => msgs ++ [⟨id, msg⟩]) n.toNat
            (payload.drop 4) [] >>= fun msgs => .ok { respValue := 0, messages := msgs }) := by
  simp only [readReport, List.drop_left' (h.bytes_length bo), List.singleton_append, read8_cons,
    ok_bind, List.drop_one, List.tail_cons, ne_eq, not_true_eq_false, if_false, pure_eq_ok]
  rfl

/-- A negative response is read no further. -/
theorem readReport_negative (bo : ByteOrder) (h : Header) (id : UserId) (payload : Bytes) :
    readReport bo (.users id) (h.bytes bo ++ ([1] ++ payload)) = .ok { respValue := 1 } ∧
      readReport bo (.recv id) (h.bytes bo ++ ([1] ++ payload)) = .ok { respValue := 1 } := by
  constructor <;>
    · simp only [readReport, List.drop_left' (h.bytes_length bo), List.singleton_append,
        read8_cons, ok_bind]
      rfl

variable {P : Platform} {iter : Traversal UserId UserMetadata} {db : Database}

theorem readReport_usersReply {id : UserId} (hnames : ShortNames db) (rest : Bytes) :
    readReport P.byteOrder (.users id) ((MccServer.usersReply P db id).bytes ++ rest)
      = .ok (reportOf P.iter db (.users id)) := by
  by_cases hex : db.userExists id = true
  · obtain ⟨len, hbytes⟩ := MccServer.exists_usersReply_bytes P hex
    have hn := MccServer.listedUsers_length (P := P) hex
    have htexts : ∀ r ∈ MccServer.listedUsers P db id, r.2.length < 2 ^ 32 := by
      intro r hr
      obtain ⟨it, hit, rfl⟩ := List.mem_map.mp hr
      exact hnames it.1 it.2
        ((P.iter.mem_order_iff db.userMap it.1 it.2).mp (List.mem_filter.mp hit).1)
    rw [hbytes, MccServer.usersPayload, MccServer.flatMap_otherUsers]
    simp only [List.append_assoc]
    rw [readReport_users_positive, ← bind_assoc,
      MccClient.readRecords_flatMap P.byteOrder _ hn htexts rest, MccServer.listedUsers,
      List.foldl_map,
      MccServer.foldl_append_map (fun it : UserId × UserMetadata => (it.1, it.2.username)),
      reportOf, if_pos hex]
    rfl
  · simp only [Bool.not_eq_true] at hex
    simp only [MccServer.usersReply, hex, Bool.not_false, if_true, MccServer.negativeReply,
      List.append_assoc, (readReport_negative _ _ id _).1, reportOf, Bool.false_eq_true, if_false]

theorem readReport_recvReply {id : UserId} (hcount : (db.queueOf id).length < 2 ^ 32)
    (hmsgs : ∀ m ∈ db.queueOf id, m.msg.length < 2 ^ 32) (rest : Bytes) :
    readReport P.byteOrder (.recv id) ((MccServer.recvReply P db id).bytes ++ rest)
      = .ok (reportOf P.iter db (.recv id)) := by
  by_cases hex : db.userExists id = true
  · have hn : (UInt32.ofNat (db.queueOf id).length).toNat
        = ((db.queueOf id).map (fun m => (m.senderId, m.msg))).length := by
      rw [UInt32.toNat_ofNat', Nat.mod_eq_of_lt hcount, List.length_map]
    have htexts := MccServer.text_length_of_queue hmsgs
    simp only [MccServer.recvReply, hex, Bool.not_true, Bool.false_eq_true, if_false,
      MccServer.recvPayload, MccServer.flatMap_msgRecord P hmsgs, List.append_assoc]
    rw [readReport_recv_positive, ← bind_assoc,
      MccClient.readRecords_flatMap P.byteOrder _ hn htexts rest, List.foldl_map,
      MccServer.foldl_append_map (fun m : Msg => (⟨m.senderId, m.msg⟩ : Msg)), reportOf, if_pos hex,
      List.map_id', List.nil_append]
    rfl
  · simp only [Bool.not_eq_true] at hex
    simp only [MccServer.recvReply, hex, Bool.not_false, if_true, MccServer.negativeReply,
      List.append_assoc, (readReport_negative _ _ id _).2, reportOf, Bool.false_eq_true, if_false]

/-- **On one database the byte server reports what there is to report.** Waiting messages are
reported if a length field can express their number and lengths. -/
theorem readReport_reply {packet : Mcc.Packet} {r : Request}
    (hvalid : (Feed.request packet r).Valid) (hnames : ShortNames db)
    (hmsgs : ∀ id, r = .recv id → (db.queueOf id).length < 2 ^ 32 ∧
      ∀ m ∈ db.queueOf id, m.msg.length < 2 ^ 32) (rest : Bytes) :
    readReport P.byteOrder r ((MccServer.reply P db r).bytes ++ rest)
      = .ok (reportOf P.iter db r) := by
  cases r with
  | register username =>
      simp only [MccServer.reply, MccServer.registerReply, List.append_assoc]
      simp only [readReport, List.drop_left' (Header.bytes_length _ _), List.singleton_append,
        read8_cons, ok_bind, List.drop_one, List.tail_cons, read32_toBytes, pure_eq_ok, reportOf]
      rfl
  | users id => exact readReport_usersReply hnames rest
  | recv id =>
      obtain ⟨hcount, hlengths⟩ := hmsgs id rfl
      exact readReport_recvReply hcount hlengths rest
  | send sourceId targetId msg => exact absurd hvalid id

theorem parseRequest_eq {packet : Mcc.Packet} {r : Request}
    (hvalid : (Feed.request packet r).Valid) (s : MccServer) :
    parseRequest P s r = s.respond (MccServer.reply P s.db r) := by
  have hread (id : UserId) : read32 P.byteOrder (P.byteOrder.toBytes id) = .ok id := by
    simpa using read32_toBytes P.byteOrder id []
  cases r with
  | register username =>
      have hlen : (UInt32.ofNat username.length).toNat = username.length := by
        rw [UInt32.toNat_ofNat', Nat.mod_eq_of_lt hvalid.2]
      apply MccServer.parseRequestRegister_eq
      rw [hlen]
      rw [readBytes_of_le (Nat.le_refl _), List.take_length]
  | users id => exact MccServer.parseRequestUsers_eq P s id (hread id)
  | recv id => exact MccServer.parseRequestRecv_eq P s id (hread id)
  | send sourceId targetId msg => exact absurd hvalid id

/-! ## The protobuf server's report -/

/-- The database the protobuf server leaves. -/
def protoDb (db : Database) : Request → Database
  | .register username => (db.registerUser username).2
  | _ => db

/-- **On one database the protobuf server reports what there is to report.** -/
theorem answerRequest_eq {packet : Mcc.Packet} {r : Request}
    (hvalid : (Feed.request packet r).Valid) :
    ∃ resp, answerRequest iter db packet r = some (resp, protoDb db r) ∧
      packetReport r resp = reportOf iter db r := by
  cases r with
  | register username =>
      refine ⟨ServerApp.registerResponse db.nextId, ?_, rfl⟩
      rw [answerRequest, ServerApp.answerRegister, hvalid.1]
      rfl
  -- Users and Recv have a response of either sign, and their negative one lists nothing.
  | users id =>
      refine ⟨ServerApp.usersResponse iter db id, ?_, ?_⟩
      · rw [answerRequest, ServerApp.answerUsers, show packet.reqUsers.bind _ = _ from hvalid]
        rfl
      · by_cases hex : db.userExists id = true
        · simp only [packetReport, ServerApp.usersResponse, hex, Bool.not_true,
            Bool.false_eq_true, if_false, Option.getD_some, List.map_map, reportOf, if_true]
          rfl
        · simp only [Bool.not_eq_true] at hex
          simp only [packetReport, ServerApp.usersResponse, hex, Bool.not_false, if_true,
            reportOf, Bool.false_eq_true, if_false]
          rfl
  | recv id =>
      have hanswer : answerRequest iter db packet (.recv id)
          = some (ServerApp.recvResponse db id) := by
        rw [answerRequest, ServerApp.answerRecv, show packet.reqRecv.bind _ = _ from hvalid]
        rfl
      by_cases hex : db.userExists id = true
      · obtain ⟨u, hu⟩ := (db.userExists_iff id).mp hex
        have hresp : ServerApp.recvResponse db id
            = ({ hdr := some { packetType := some .respRecv }
                 respRecv := some
                  { respValue := some 0, messages := u.msgQ.map ServerApp.userMessage } }, db) := by
          simp only [ServerApp.recvResponse, hex, Bool.not_true, Bool.false_eq_true, if_false,
            Database.get_of_find hu]
        refine ⟨_, hanswer.trans (congrArg some hresp), ?_⟩
        simp only [packetReport, Option.getD_some, List.map_map, reportOf, if_pos hex,
          Database.queueOf_of_find hu]
        congr 1
        exact List.map_id' u.msgQ
      · simp only [Bool.not_eq_true] at hex
        have hresp : ServerApp.recvResponse db id
            = ({ hdr := some { packetType := some .respRecv }
                 respRecv := some { respValue := some 1 } }, db) := by
          simp only [ServerApp.recvResponse, hex, Bool.not_false, if_true]
        refine ⟨_, hanswer.trans (congrArg some hresp), ?_⟩
        simp only [packetReport, reportOf, hex, Bool.false_eq_true, if_false]
        rfl
  | send sourceId targetId msg => exact absurd hvalid id

/-! ## One step -/

/-- **Where the two part**: the queue that has been handed out. -/
theorem reply_db_eq_iff {packet : Mcc.Packet} {r : Request}
    (hvalid : (Feed.request packet r).Valid) :
    (MccServer.reply P db r).db = protoDb db r ↔ Quiet db (.request packet r) := by
  cases r with
  | register username => exact iff_of_true rfl trivial
  | users id =>
      refine iff_of_true ?_ trivial
      simp only [MccServer.reply, MccServer.usersReply, protoDb]
      split_ifs <;> rfl
  | recv id =>
      simp only [MccServer.reply, MccServer.recvReply, protoDb, Quiet]
      by_cases hex : db.userExists id = true
      · simp only [hex, Bool.not_true, Bool.false_eq_true, if_false]
        obtain ⟨u, hu⟩ := (db.userExists_iff id).mp hex
        constructor
        · intro heq
          have hcleared := Database.queueOf_clearMsgs hex id
          rwa [heq, if_pos rfl] at hcleared
        · intro hempty
          rw [Database.queueOf_of_find hu] at hempty
          -- An empty queue is cleared to itself.
          refine Database.ext rfl fun a => ?_
          rw [Database.find_clearMsgs hu]
          by_cases ha : id = a
          · subst ha
            rw [if_pos rfl, hu, ← hempty]
          · rw [if_neg ha]
      · simp only [Bool.not_eq_true] at hex
        refine iff_of_true ?_ (Database.queueOf_of_none ((db.userExists_eq_false id).mp hex))
        simp only [hex, Bool.not_false, if_true]
        rfl
  | send sourceId targetId msg => exact absurd hvalid id

/-- The observation shows the databases the step leaves. -/
theorem step_observes {s s' : Servers} {feed : Feed} {o : Observation}
    (hstep : step P iter s feed = .ok (s', o)) : s'.byte.db = o.byteDb ∧ s'.proto = o.protoDb := by
  cases feed with
  | request packet r =>
      obtain ⟨⟨n, byte⟩, -, hstep⟩ := bind_eq_ok.mp hstep
      simp only [pure_eq_ok, Except.ok.injEq, Prod.mk.injEq] at hstep
      obtain ⟨rfl, rfl⟩ := hstep
      exact ⟨rfl, rfl⟩
  | queue recepientId m =>
      rw [step, pure_eq_ok, Except.ok.injEq, Prod.mk.injEq] at hstep
      obtain ⟨rfl, rfl⟩ := hstep
      exact ⟨rfl, rfl⟩

/-- **What a request does**, from equal databases. -/
theorem step_request {s s' : Servers} {packet : Mcc.Packet} {r : Request} {o : Observation}
    (hvalid : (Feed.request packet r).Valid) (hsame : s.byte.db = s.proto)
    (hstep : step P iter s (.request packet r) = .ok (s', o)) :
    o.byteDb = (MccServer.reply P s.proto r).db ∧ o.protoDb = protoDb s.proto r ∧
      o.protoReport = some (reportOf iter s.proto r) ∧
      ∃ rest, o.byteReport = (readReport P.byteOrder r
        ((MccServer.reply P s.proto r).bytes ++ rest)).toOption := by
  have hreply : ∃ resp, answerRequest iter s.proto packet r = some (resp, protoDb s.proto r) ∧
      packetReport r resp = reportOf iter s.proto r := answerRequest_eq hvalid
  rcases hreply with ⟨resp, hanswer, hreport⟩
  rw [step, parseRequest_eq hvalid, hsame] at hstep
  obtain ⟨⟨n, byte⟩, hrespond, hstep⟩ := bind_eq_ok.mp hstep
  -- A response that did not fit would have been a fault.
  have hle : (MccServer.reply P s.proto r).bytes.length ≤ s.byte.txBuffer.length := by
    by_contra hlt
    rw [MccServer.respond_of_lt (Nat.not_le.mp hlt)] at hrespond
    cases hrespond
  rw [MccServer.respond_of_le hle, Except.ok.injEq, Prod.mk.injEq] at hrespond
  obtain ⟨-, rfl⟩ := hrespond
  simp only [hanswer, Option.map_some, Option.getD_some, hreport, pure_eq_ok,
    Except.ok.injEq, Prod.mk.injEq] at hstep
  obtain ⟨rfl, rfl⟩ := hstep
  exact ⟨rfl, rfl, rfl, _, rfl⟩

/-- A message is queued in both databases alike. -/
theorem step_queue {s s' : Servers} {recepientId : UserId} {m : Msg} {o : Observation}
    (hsame : s.byte.db = s.proto) (hstep : step P iter s (.queue recepientId m) = .ok (s', o)) :
    o.byteDb = (s.proto.queueMsg recepientId m).2 ∧
      o.protoDb = (s.proto.queueMsg recepientId m).2 := by
  rw [step, pure_eq_ok, Except.ok.injEq, Prod.mk.injEq] at hstep
  obtain ⟨-, rfl⟩ := hstep
  exact ⟨congrArg (fun db => (db.queueMsg recepientId m).2) hsame, rfl⟩

/-- **On a step from equal databases the servers agree exactly if it is quiet.** -/
theorem agree_iff_quiet {s s' : Servers} {feed : Feed} {o : Observation} (hvalid : feed.Valid)
    (hnames : ShortNames s.proto) (hsame : s.byte.db = s.proto)
    (hstep : step P iter s feed = .ok (s', o)) : Agree feed o ↔ Quiet s.proto feed := by
  cases feed with
  | request packet r =>
      obtain ⟨hbyte, hproto, hprotoReport, rest, hbyteReport⟩ := step_request hvalid hsame hstep
      -- The databases stay equal exactly on a quiet step, and then the reports agree as well.
      rw [Agree, hbyte, hproto, reply_db_eq_iff hvalid]
      refine and_iff_left_of_imp fun hquiet => ?_
      have hmsgs (id : UserId) (hr : r = .recv id) : (s.proto.queueOf id).length < 2 ^ 32 ∧
          ∀ m ∈ s.proto.queueOf id, m.msg.length < 2 ^ 32 := by
        subst hr
        have hempty : s.proto.queueOf id = [] := hquiet
        rw [hempty]
        exact ⟨by norm_num, nofun⟩
      have hread := readReport_reply (P := P) hvalid hnames hmsgs rest
      exact ⟨_, _, by rw [hbyteReport, hread]; rfl, hprotoReport,
        reportOf_same P.iter iter s.proto r⟩
  | queue recepientId m =>
      obtain ⟨hbyte, hproto⟩ := step_queue hsame hstep
      exact iff_of_true ⟨hbyte.trans hproto.symm, trivial⟩ trivial

/-- The names stay short. -/
theorem shortNames_step {s s' : Servers} {feed : Feed} {o : Observation} (hvalid : feed.Valid)
    (hnames : ShortNames s.proto) (hsame : s.byte.db = s.proto)
    (hstep : step P iter s feed = .ok (s', o)) : ShortNames s'.proto := by
  intro id u hu
  rw [(step_observes hstep).2] at hu
  cases feed with
  | request packet r =>
      rw [(step_request hvalid hsame hstep).2.1] at hu
      cases r with
      | register username =>
          rw [protoDb, Database.find_registerUser] at hu
          split_ifs at hu with hid
          · cases hu
            exact hvalid.2
          · exact hnames id u hu
      | users _ => exact hnames id u hu
      | recv _ => exact hnames id u hu
      | send _ _ _ => exact hnames id u hu
  | queue recepientId m =>
      rw [(step_queue hsame hstep).2] at hu
      cases hfind : s.proto.find recepientId with
      | none =>
          rw [Database.queueMsg_of_none hfind] at hu
          exact hnames id u hu
      | some v =>
          rw [Database.queueMsg_of_find hfind, Database.find_updateAt hfind] at hu
          split_ifs at hu with hid
          · cases hu
            exact hnames recepientId v hfind
          · exact hnames id u hu

/-! ## Runs -/

/-- **Over a run the servers agree on every step exactly if nobody ever asks for messages that
wait.** -/
theorem agreement_iff {s s' : Servers} {feeds : List Feed}
    {log : List (Entry Servers Feed Observation)} (hsame : s.byte.db = s.proto)
    (hnames : ShortNames s.proto) (hvalid : ∀ feed ∈ feeds, feed.Valid)
    (hrun : run (step P iter) s feeds = .ok (s', log)) :
    (∀ e ∈ log, Agree e.input e.output) ↔ ∀ e ∈ log, Quiet e.before.proto e.input := by
  induction feeds generalizing s log with
  | nil =>
      obtain ⟨-, rfl⟩ : s = s' ∧ [] = log := by simpa [run] using hrun
      exact iff_of_true (List.forall_mem_nil _) (List.forall_mem_nil _)
  | cons feed feeds ih =>
      obtain ⟨t, o, log', hstep, htail, rfl⟩ := run_cons_eq_ok.mp hrun
      obtain ⟨hfeed, hfeeds⟩ := List.forall_mem_cons.mp hvalid
      rw [List.forall_mem_cons, List.forall_mem_cons]
      -- The first step on which they do not agree is not quiet; up to it the databases are equal.
      have hfirst : Agree feed o ↔ Quiet s.proto feed := agree_iff_quiet hfeed hnames hsame hstep
      rw [hfirst]
      refine and_congr_right fun hquiet => ?_
      obtain ⟨hbyte, hproto⟩ := step_observes hstep
      have hequal : t.byte.db = t.proto := by
        rw [hbyte, hproto]
        exact (hfirst.mpr hquiet).1
      exact ih hequal (shortNames_step hfeed hnames hsame hstep) hfeeds htail

/-- Two servers as they start, with a transmit buffer of 100 bytes. -/
def fresh : Servers := ⟨⟨.empty, List.replicate 100 0⟩, .empty⟩

theorem agreement_register_users_queue :
    let feeds := [Feed.request (App.registerRequest [65]) (.register [65]),
      .request (App.registerRequest [66]) (.register [66]),
      .request (App.recvRequest 1) (.recv 1), .request (App.usersRequest 0) (.users 0),
      .queue 1 ⟨0, [104, 105]⟩]
    ∃ s' log, run (step .littleEndian (.ascending _ _)) fresh feeds = .ok (s', log) ∧
      ∀ e ∈ log, Agree e.input e.output := by
  intro feeds
  have hok : (run (step .littleEndian (.ascending _ _)) fresh feeds).map (fun _ => ())
      = .ok () := by
    decide +kernel
  obtain ⟨⟨s', log⟩, hrun, -⟩ := map_eq_ok.mp hok
  have hnames : ShortNames fresh.proto := by
    intro id u hu
    rw [fresh, Database.find_empty] at hu
    cases hu
  have hvalid : ∀ feed ∈ feeds, feed.Valid := by
    simp only [feeds, List.forall_mem_cons]
    exact ⟨⟨rfl, by decide⟩, ⟨rfl, by decide⟩, rfl, rfl, trivial, List.forall_mem_nil _⟩
  have hquiet : Along (step .littleEndian (.ascending _ _)) (fun s feed => Quiet s.proto feed)
      fresh feeds := by decide +kernel
  exact ⟨s', log, hrun, (agreement_iff rfl hnames hvalid hrun).mpr ((along_iff hrun).mp hquiet)⟩

/-- A user asks for the message that waits. -/
theorem not_agreement_recv :
    let feeds := [Feed.request (App.registerRequest [65]) (.register [65]),
      .queue 0 ⟨0, [104, 105]⟩, .request (App.recvRequest 0) (.recv 0)]
    (∀ feed ∈ feeds, feed.Valid) ∧
      ∃ s' log, run (step .littleEndian (.ascending _ _)) fresh feeds = .ok (s', log) ∧
        ¬∀ e ∈ log, Agree e.input e.output := by
  intro feeds
  constructor
  · simp only [feeds, List.forall_mem_cons]
    exact ⟨⟨rfl, by decide⟩, trivial, rfl, List.forall_mem_nil _⟩
  · have heval : (run (step .littleEndian (.ascending _ _)) fresh feeds).map
        (fun out => out.2.all fun e => decide (e.output.byteDb = e.output.protoDb))
        = .ok false := by decide +kernel
    obtain ⟨⟨s', log⟩, hrun, hdbs⟩ := map_eq_ok.mp heval
    refine ⟨s', log, hrun, fun hagree => ?_⟩
    have hall : (log.all fun e => decide (e.output.byteDb = e.output.protoDb)) = true :=
      List.all_eq_true.mpr fun e he => decide_eq_true (hagree e he).1
    rw [hall] at hdbs
    cases hdbs

end Servers

end ChatApp
