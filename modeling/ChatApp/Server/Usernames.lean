import ChatApp.Lib.Run
import ChatApp.Server.MccServer
import ChatApp.Server.ServerApp

set_option autoImplicit false

/-! # The usernames in a database

One database is shared by both servers: requests of either protocol arrive in any order. No
registration looks for its username among those present. So the names are distinct as long as
nobody asks for a name that is taken (`Registrar.namesUnique_iff`), and the first who does is
registered instead of refused.
-/

namespace ChatApp

open Lib Lib.Wire Lib.Wire.Message

namespace Database

/-- Somebody holds the name. -/
def Taken (db : Database) (name : Bytes) : Prop := ∃ id, db.nameOf id = some name

/-- Nobody shares a name. -/
def NamesDistinct (db : Database) : Prop :=
  ∀ id id' name, db.nameOf id = some name → db.nameOf id' = some name → id = id'

theorem NamesDistinct.empty : NamesDistinct empty := by
  intro id id' name h
  rw [nameOf_empty] at h
  cases h

theorem NamesDistinct.of_nameOf {db db' : Database} (h : db.NamesDistinct)
    (heq : ∀ id, db'.nameOf id = db.nameOf id) : db'.NamesDistinct := by
  intro id id' name hid hid'
  rw [heq] at hid hid'
  exact h id id' name hid hid'

/-- A registration under a new name keeps the names distinct, also when it takes over an id. -/
theorem NamesDistinct.register {db : Database} (h : db.NamesDistinct) {username : Bytes}
    (hfree : ¬db.Taken username) : (db.registerUser username).2.NamesDistinct := by
  intro id id' name hid hid'
  rw [nameOf_registerUser] at hid hid'
  by_cases hnew : db.nextId = id
  · by_cases hnew' : db.nextId = id'
    · exact hnew.symm.trans hnew'
    · rw [if_pos hnew] at hid
      rw [if_neg hnew', ← hid] at hid'
      exact absurd ⟨id', hid'⟩ hfree
  · by_cases hnew' : db.nextId = id'
    · rw [if_pos hnew'] at hid'
      rw [if_neg hnew, ← hid'] at hid
      exact absurd ⟨id, hid⟩ hfree
    · rw [if_neg hnew] at hid
      rw [if_neg hnew'] at hid'
      exact h id id' name hid hid'

/-- No registration leaves the database as it is: the counter moves on. -/
theorem registerUser_ne (db : Database) (username : Bytes) : (db.registerUser username).2 ≠ db := by
  intro h
  have hnext : db.nextId + 1 = db.nextId := congrArg Database.nextId h
  have hnat := congrArg UInt32.toNat hnext
  have hlt := db.nextId.toNat_lt
  rw [UInt32.toNat_add] at hnat
  have hone : (1 : UInt32).toNat = 1 := rfl
  omega

end Database

/-! ## Both servers on one database -/

/-- What arrives: bytes for the one server, or a packet for the other. -/
inductive Arrival
  | bytes (data : Bytes)
  | packet (packet : Mcc.Packet)
  deriving Repr, DecidableEq

/-- What a request comes to: the bytes sent, and the database. -/
structure Answered where
  sent : Except Fault Bytes
  db : Database

namespace Registrar

variable (P : Platform)

/-- One request. The database is the byte server's, and the protobuf server works on it
too. -/
def step (s : MccServer) : Arrival → Except Fault (MccServer × Answered)
  | .bytes data => do
      let (n, s) ← s.parse P data
      return (s, ⟨readBytes s.txBuffer n, s.db⟩)
  | .packet packet =>
      let h := ServerApp.handlePacket P.iter s.db packet
      return ({ s with db := h.db }, ⟨h.sent, h.db⟩)

/-- The username a request registers, if it is a registration. -/
def requestUsername : Request → Option Bytes
  | .register username => some username
  | .users _ => none
  | .send _ _ _ => none
  | .recv _ => none

/-- The username a packet registers, if it is a registration. -/
def packetUsername (packet : Mcc.Packet) : Option Bytes :=
  match ((packet.hdr.getD {}).packetType).getD .requestRegister with
  | .requestRegister => packet.reqReg.bind (·.username)
  | _ => none

/-- The username an arrival registers, if it is a registration. -/
def registers : Arrival → Option Bytes
  | .bytes data => (MccServer.requestIn P data).toOption.bind requestUsername
  | .packet packet => packetUsername packet

/-- The refusal the protocol has for a name that is taken: the response value 1, and no id. -/
def Refused : Arrival → Except Fault Bytes → Prop
  | .bytes _, sent => sent = .ok (Header.bytes P.byteOrder ⟨.kRespRegister, 1⟩ ++ [1])
  | .packet _, sent => ∃ resp : Mcc.Packet, sent = .ok (serialize resp) ∧
      resp.respReg = some { respValue := some 1, assignedId := none }

/-- In every state of the run the names are distinct, and every registration of a name that is
taken is refused and changes nothing. -/
structure NamesUnique (log : List (Entry MccServer Arrival Answered)) : Prop where
  distinct : ∀ e ∈ log, e.output.db.NamesDistinct
  refused : ∀ e ∈ log, ∀ username, registers P e.input = some username →
    e.before.db.Taken username → Refused P e.input e.output.sent ∧ e.output.db = e.before.db

variable {P}

/-! ## One request -/

/-- What a request does to the names: a registration adds its own, any other keeps them. -/
def NamesAfter (db : Database) (db' : Database) : Option Bytes → Prop
  | some username => db' = (db.registerUser username).2
  | none => ∀ id, db'.nameOf id = db.nameOf id

theorem namesAfter_reply (db : Database) (r : Request) :
    NamesAfter db (MccServer.reply P db r).db (requestUsername r) := by
  cases r with
  | register username => rfl
  | users id =>
      intro k
      rw [MccServer.reply, MccServer.usersReply_db]
  | send sourceId targetId msg =>
      intro k
      simp only [MccServer.reply, MccServer.sendReply, MccServer.sendEffect]
      split_ifs
      · rfl
      · rfl
      · exact Database.nameOf_queueMsg db targetId _ k
  | recv id =>
      intro k
      simp only [MccServer.reply, MccServer.recvReply]
      split_ifs with hex
      · rfl
      · apply Database.nameOf_clearMsgs
        simpa using hex

theorem namesAfter_packet (db : Database) (packet : Mcc.Packet) :
    NamesAfter db (ServerApp.handlePacket P.iter db packet).db (packetUsername packet) := by
  have hdb : (ServerApp.handlePacket P.iter db packet).db
      = ((ServerApp.answer P.iter db packet).map Prod.snd).getD db := by
    rw [ServerApp.handlePacket_eq]
    cases ServerApp.answer P.iter db packet <;> rfl
  rw [hdb]
  unfold ServerApp.answer packetUsername
  cases ((packet.hdr.getD {}).packetType).getD .requestRegister with
  | requestRegister =>
      show NamesAfter db (((ServerApp.answerRegister db packet).map Prod.snd).getD db)
        (packet.reqReg.bind (·.username))
      unfold ServerApp.answerRegister
      cases packet.reqReg.bind (·.username) with
      | none => exact fun _ => rfl
      | some username => rfl
  | requestUsers =>
      show NamesAfter db (((ServerApp.answerUsers P.iter db packet).map Prod.snd).getD db) none
      unfold ServerApp.answerUsers
      cases packet.reqUsers.bind (·.requestorId) <;> exact fun _ => rfl
  | _ => exact fun _ => rfl

/-- **The step lemma.** -/
theorem step_names {s s' : MccServer} {a : Arrival} {o : Answered}
    (hstep : step P s a = .ok (s', o)) :
    o.db = s'.db ∧ NamesAfter s.db o.db (registers P a) := by
  cases a with
  | bytes data =>
      rcases bind_eq_ok.mp hstep with ⟨⟨n, t⟩, hparse, hout⟩
      simp only [pure_eq_ok, Except.ok.injEq, Prod.mk.injEq] at hout
      rcases hout with ⟨rfl, rfl⟩
      rw [MccServer.parse_eq] at hparse
      rcases bind_eq_ok.mp hparse with ⟨r, hin, hrespond⟩
      have hdb : t.db = (MccServer.reply P s.db r).db :=
        congrArg (fun out => out.2.db) (MccServer.respond_eq_ok.mp hrespond).2
      refine ⟨rfl, ?_⟩
      show NamesAfter s.db t.db ((MccServer.requestIn P data).toOption.bind requestUsername)
      rw [hin, hdb]
      exact namesAfter_reply s.db r
  | packet packet =>
      have hout := Except.ok.inj hstep
      rw [Prod.mk.injEq] at hout
      rcases hout with ⟨rfl, rfl⟩
      exact ⟨rfl, namesAfter_packet s.db packet⟩

/-- A request that asks for no taken name keeps the names distinct. -/
theorem namesDistinct_step {s s' : MccServer} {a : Arrival} {o : Answered}
    (hdistinct : s.db.NamesDistinct)
    (hfree : ∀ username, registers P a = some username → ¬s.db.Taken username)
    (hstep : step P s a = .ok (s', o)) : o.db.NamesDistinct := by
  have hafter := (step_names hstep).2
  cases hreg : registers P a with
  | none =>
      rw [hreg] at hafter
      exact hdistinct.of_nameOf hafter
  | some username =>
      rw [hreg] at hafter
      have hnew : o.db = (s.db.registerUser username).2 := hafter
      rw [hnew]
      exact hdistinct.register (hfree username hreg)

/-! ## Runs -/

/-- **Usernames are unique, and taken ones are refused, exactly in the runs in which nobody
asks for a name that is taken.** -/
theorem namesUnique_iff {s s' : MccServer} {arrivals : List Arrival}
    {log : List (Entry MccServer Arrival Answered)} (hempty : s.db = .empty)
    (hrun : run (step P) s arrivals = .ok (s', log)) :
    NamesUnique P log ↔
      ∀ e ∈ log, ∀ username, registers P e.input = some username → ¬e.before.db.Taken username := by
  constructor
  · intro h e he username hreg htaken
    rcases step_of_mem_log hrun he with ⟨t, hstep⟩
    rcases step_names hstep with ⟨-, hafter⟩
    rw [hreg] at hafter
    -- The registration went through.
    have hnew : e.output.db = (e.before.db.registerUser username).2 := hafter
    have hsame := (h.refused e he username hreg htaken).2
    exact Database.registerUser_ne e.before.db username (hnew.symm.trans hsame)
  · intro h
    have hstart : s.db.NamesDistinct ∧
        ∀ e ∈ ([] : List (Entry MccServer Arrival Answered)), e.output.db.NamesDistinct := by
      rw [hempty]
      exact ⟨Database.NamesDistinct.empty, List.forall_mem_nil _⟩
    refine ⟨?_, ?_⟩
    · refine (run_induction_of_ok
        (p := fun s a => ∀ username, registers P a = some username → ¬s.db.Taken username)
        (I := fun s log _ => s.db.NamesDistinct ∧ ∀ e ∈ log, e.output.db.NamesDistinct)
        ?_ hstart ((along_iff hrun).mpr h) hrun).2
      rintro s log a as s' o ⟨hdistinct, hlog⟩ hfree hstep
      have hnext := namesDistinct_step hdistinct hfree hstep
      refine ⟨(step_names hstep).1 ▸ hnext, ?_⟩
      exact forall_mem_concat hlog hnext
    · intro e he username hreg htaken
      exact absurd htaken (h e he username hreg)

/-- A server as it starts, with a transmit buffer of 100 bytes. -/
def fresh : MccServer := ⟨.empty, List.replicate 100 0⟩

/-- A Register packet for the protobuf server. -/
def registerPacket (username : Bytes) : Mcc.Packet where
  hdr := some { packetType := some .requestRegister }
  reqReg := some { username := some username }

theorem namesUnique_two_names :
    let arrivals := [Arrival.bytes [0, 1, 0, 0, 0, 65], .packet (registerPacket [66]),
      .bytes [1, 4, 0, 0, 0, 1, 0, 0, 0]]
    ∃ s' log, run (step .littleEndian) fresh arrivals = .ok (s', log) ∧
      NamesUnique .littleEndian log := by
  intro arrivals
  have heval : (run (step .littleEndian) fresh arrivals).map (fun out => out.2.all fun e =>
      (registers .littleEndian e.input).all fun username =>
        ((Traversal.ascending UserId UserMetadata).order e.before.db.userMap).all fun it =>
          decide (it.2.username ≠ username)) = .ok true := by
    decide +kernel
  rcases map_eq_ok.mp heval with ⟨⟨s', log⟩, hrun, hall⟩
  refine ⟨s', log, hrun, (namesUnique_iff rfl hrun).mpr ?_⟩
  rintro e he username hreg ⟨id, hid⟩
  rcases Option.map_eq_some_iff.mp hid with ⟨u, hu, rfl⟩
  have hentry := List.all_eq_true.mp hall e he
  rw [hreg] at hentry
  have hmem : (id, u) ∈ (Traversal.ascending UserId UserMetadata).order e.before.db.userMap :=
    (Traversal.mem_order_iff _ _ id u).mpr hu
  exact of_decide_eq_true (List.all_eq_true.mp hentry (id, u) hmem) rfl

/-- The same name, once at each server. -/
theorem not_namesUnique_same_name :
    let arrivals := [Arrival.bytes [0, 1, 0, 0, 0, 65], .packet (registerPacket [65])]
    ∃ s' log, run (step .littleEndian) fresh arrivals = .ok (s', log) ∧
      ¬NamesUnique .littleEndian log := by
  intro arrivals
  have heval : (run (step .littleEndian) fresh arrivals).map (fun out => out.2.any fun e =>
      decide (e.output.db.nameOf 0 = some [65] ∧ e.output.db.nameOf 1 = some [65]))
      = .ok true := by
    decide +kernel
  rcases map_eq_ok.mp heval with ⟨⟨s', log⟩, hrun, hany⟩
  refine ⟨s', log, hrun, ?_⟩
  intro h
  rcases List.any_eq_true.mp hany with ⟨e, he, hshared⟩
  rcases of_decide_eq_true hshared with ⟨hzero, hone⟩
  have heq := h.distinct e he 0 1 [65] hzero hone
  cases heq

end Registrar

end ChatApp
