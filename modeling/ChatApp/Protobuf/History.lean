import ChatApp.ByteProtocol.RoundTrip
import ChatApp.Protobuf.InvalidRequests
import ChatApp.Server.Mailboxes
import ChatApp.Server.Usernames

set_option autoImplicit false

/-! # What the protobuf server does with its connections

Of the mailboxes the protobuf server has half: people join and look each other up, and nothing
is ever sent or fetched. Whatever bytes come over whatever connections, its run is a run of the
mailboxes on the Register and Users requests among them, no mailbox ever has anything in it,
and every other connection ends without a byte or a change (`history_of_run`).
-/

namespace ChatApp

open Lib Lib.Wire Lib.Wire.Message Database

namespace ServerApp

/-- One connection: the database after it, and what it came to, if its thread got that far. -/
def serveConnection (iter : Traversal UserId UserMetadata) (db : Database) (recvs : List Recv) :
    Database × Option Handled :=
  match handleRequest iter db recvs with
  | none => (db, none)
  | some h => (h.db, some h)

/-- What a packet asks of the mailboxes. -/
def packetAction (packet : Mcc.Packet) : Option (Mailboxes.Action Bytes Bytes) :=
  ((Registrar.packetUsername packet).map .join).or
    ((usersRequestor packet).map fun id => .look id.toNat)

/-- What the packet a connection takes asks. -/
def action (recvs : List Recv) : Option (Mailboxes.Action Bytes Bytes) :=
  (received recvs).bind packetAction

/-- The name a connection registers. -/
def connectionName (recvs : List Recv) : Option Bytes :=
  (received recvs).bind Registrar.packetUsername

/-- A user in a response. -/
def listing (e : UserId × Bytes) : Mcc.OnlineUser := { userId := some e.1, username := some e.2 }

/-- A response, as an answer of the mailboxes. -/
def Responds (resp : Mcc.Packet) : Mailboxes.Answer Bytes Bytes → Prop
  | .joined who => ∃ id : UserId, id.toNat = who ∧ resp = registerResponse id
  | .listed others => ∃ users : List (UserId × Bytes),
      resp = { hdr := some { packetType := some .respUsers }
               respUsers := some { respValue := some 0, onlineUsers := users.map listing } } ∧
      (users.map Prod.fst).Nodup ∧ ∀ id name, (id, name) ∈ users ↔ (id.toNat, name) ∈ others
  | .unknown => resp = { hdr := some { packetType := some .respUsers }
                         respUsers := some { respValue := some 1 } }
  | _ => False

/-- A connection and the step of the mailboxes that it is. A response that fits into the
transmit buffer is sent. -/
structure Follows (e : Entry Database (List Recv) (Option Handled))
    (d : Entry (Mailboxes Bytes Bytes) (Mailboxes.Action Bytes Bytes)
      (Mailboxes.Answer Bytes Bytes)) : Prop where
  before : Represents e.before d.before
  input : action e.input = some d.input
  output : ∃ h resp, e.output = some h ∧ Responds resp d.output ∧
    (byteSizeLong resp ≤ bufferSize → h.sent = .ok (serialize resp))

variable {iter : Traversal UserId UserMetadata} {db db' : Database}
  {t : Mailboxes Bytes Bytes} {recvs : List Recv} {out : Option Handled}

/-! ## One connection -/

/-- The users a response lists. -/
theorem usersResponse_eq {id : UserId} (hex : db.userExists id = true) :
    usersResponse iter db id
      = { hdr := some { packetType := some .respUsers }
          respUsers := some
            { respValue := some 0
              onlineUsers := ((((iter.order db.userMap).filter (fun it => it.1 ≠ id)).map
                fun it => (it.1, it.2.username)).map listing) } } := by
  rw [usersResponse, if_neg (by simp [hex]), List.map_map]
  rfl

/-- A connection that asks for nothing changes nothing and is sent nothing. -/
theorem serveConnection_of_none (h : action recvs = none)
    (hstep : serveConnection iter db recvs = (db', out)) :
    db' = db ∧ ∀ h ∈ out, h.sent = .ok [] := by
  rw [serveConnection, handleRequest_eq] at hstep
  match hr : received recvs with
  | none =>
      rw [hr] at hstep
      obtain ⟨rfl, rfl⟩ := Prod.mk.inj hstep
      exact ⟨rfl, by simp⟩
  | some packet =>
      rw [action, hr, Option.bind_some, packetAction, Option.or_eq_none_iff, Option.map_eq_none_iff,
        Option.map_eq_none_iff] at h
      have hnone : answer iter db packet = none := by
        rw [answer_eq, h.1, h.2]
        rfl
      rw [hr, Option.map_some, handlePacket_of_none iter db hnone] at hstep
      obtain ⟨rfl, rfl⟩ := Prod.mk.inj hstep
      refine ⟨rfl, fun h hh => ?_⟩
      obtain rfl := Option.some.inj hh
      exact readBytes_append (a := []) rfl

/-- **One connection that asks for something** is a step of the mailboxes. -/
theorem serveConnection_of_some {a : Mailboxes.Action Bytes Bytes} (h : action recvs = some a)
    (hrep : Represents db t) (hle : t.names.length + a.name?.toList.length ≤ 2 ^ 32)
    (hstep : serveConnection iter db recvs = (db', out)) :
    Represents db' (t.step a).1 ∧ Follows ⟨db, recvs, out⟩ ⟨t, a, (t.step a).2⟩ := by
  rw [serveConnection, handleRequest_eq] at hstep
  obtain ⟨packet, hr, hpacket⟩ := Option.bind_eq_some_iff.mp h
  rw [hr, Option.map_some] at hstep
  rcases hname : Registrar.packetUsername packet with _ | username
  -- No name to register: the packet asks for the users.
  · rw [packetAction, hname, Option.map_none, Option.none_or, Option.map_eq_some_iff] at hpacket
    obtain ⟨id, hid, rfl⟩ := hpacket
    have hanswer := answer_of_usersRequestor iter db hid
    rw [handlePacket_of_some iter db hanswer] at hstep
    obtain ⟨rfl, rfl⟩ := Prod.mk.inj hstep
    refine ⟨hrep, hrep, h, _, usersResponse iter db id, rfl, ?_, fun hfits => ?_⟩
    · show Responds _ (if id.toNat < t.names.length then _ else _)
      by_cases hex : db.userExists id = true
      · have hlists : ListsOthers db id _ :=
          listedUsers_listsOthers ⟨.little, iter, fun _ => []⟩ db id
        rw [if_pos ((hrep.userExists_iff id).mp hex)]
        refine ⟨_, usersResponse_eq hex, hlists.nodup, fun i name => ?_⟩
        exact (hlists.mem_iff i name).trans (hrep.mem_others_iff id i name).symm
      · rw [if_neg (mt (hrep.userExists_iff id).mpr hex), Responds, usersResponse]
        simp [hex]
    · rw [← handlePacket_of_some iter db hanswer]
      exact sent_of_some iter db hanswer hfits
  · rw [packetAction, hname, Option.map_some, Option.some_or, Option.some.injEq] at hpacket
    subst hpacket
    have hlt : t.names.length < 2 ^ 32 := by
      have hone :
          (Mailboxes.Action.join username : Mailboxes.Action Bytes Bytes).name?.toList.length = 1 :=
        rfl
      omega
    have hanswer : answer iter db packet
        = some (registerResponse db.nextId, (db.registerUser username).2) := by
      rw [answer_eq, hname]
      rfl
    have hfits : byteSizeLong (registerResponse db.nextId) ≤ bufferSize := by
      have hsize := varintSize_le db.nextId.toNat_lt
      rw [registerResponse_size, bufferSize]
      omega
    rw [handlePacket_of_some iter db hanswer] at hstep
    obtain ⟨rfl, rfl⟩ := Prod.mk.inj hstep
    refine ⟨hrep.register hlt username, hrep, h, _, registerResponse db.nextId, rfl,
      ⟨db.nextId, ?_, rfl⟩, fun _ => ?_⟩
    · rw [hrep.named.counted.nextId_eq, Nat.mod_eq_of_lt hlt]
    · rw [← handlePacket_of_some iter db hanswer]
      exact sent_of_some iter db hanswer hfits

/-! ## Runs -/

/-- An action that leaves the mailboxes empty: a name joins, or the others are looked up. -/
theorem box_of_packetAction {packet : Mcc.Packet} {a : Mailboxes.Action Bytes Bytes}
    (h : packetAction packet = some a) (t : Mailboxes Bytes Bytes) : (t.step a).1.box = t.box := by
  rw [packetAction, Option.or_eq_some_iff] at h
  rcases h with h | ⟨-, h⟩
  · obtain ⟨username, -, rfl⟩ := Option.map_eq_some_iff.mp h
    rfl
  · obtain ⟨id, -, rfl⟩ := Option.map_eq_some_iff.mp h
    rfl

/-- The relation that the connections keep: the mailboxes are empty, and there is room for
the registrations still to come. -/
structure Tells (db : Database) (t : Mailboxes Bytes Bytes) (rest : List (List Recv)) : Prop where
  represents : Represents db t
  empty : ∀ i, t.box i = []
  room : t.names.length + (rest.filterMap connectionName).length ≤ 2 ^ 32

/-- The name a connection registers is the one that joins. -/
theorem name_of_action (recvs : List Recv) :
    (action recvs).bind (·.name?) = connectionName recvs := by
  rw [action, connectionName, Option.bind_assoc]
  congr 1
  funext packet
  rcases hname : Registrar.packetUsername packet with _ | username
  · rcases hid : usersRequestor packet with _ | id <;>
      simp [packetAction, hname, hid, Mailboxes.Action.name?]
  · simp [packetAction, hname, Mailboxes.Action.name?]

theorem Tells.stay {rest : List (List Recv)} (h : Tells db t (recvs :: rest))
    (hnone : action recvs = none) (hstep : serveConnection iter db recvs = (db', out)) :
    Tells db' t rest := by
  obtain ⟨rfl, -⟩ := serveConnection_of_none hnone hstep
  have hname : connectionName recvs = none := by
    rw [← name_of_action, hnone]
    rfl
  refine ⟨h.represents, h.empty, ?_⟩
  rw [← List.filterMap_cons_none hname]
  exact h.room

theorem Tells.move {rest : List (List Recv)} {a : Mailboxes.Action Bytes Bytes}
    (h : Tells db t (recvs :: rest)) (hsome : action recvs = some a)
    (hstep : serveConnection iter db recvs = (db', out)) :
    Tells db' (t.step a).1 rest ∧ Follows ⟨db, recvs, out⟩ ⟨t, a, (t.step a).2⟩ := by
  have hname : connectionName recvs = a.name? := by
    rw [← name_of_action, hsome]
    rfl
  have hroom : t.names.length + (a.name?.toList.length + (rest.filterMap connectionName).length)
      ≤ 2 ^ 32 := by
    have hcons : ((recvs :: rest).filterMap connectionName).length
        = a.name?.toList.length + (rest.filterMap connectionName).length := by
      rw [List.filterMap_cons, hname]
      rcases a.name? with _ | name
      · simp
      · simp [Nat.add_comm]
    exact hcons ▸ h.room
  obtain ⟨hrep, hfollows⟩ := serveConnection_of_some hsome h.represents (by omega) hstep
  refine ⟨⟨hrep, fun i => ?_, ?_⟩, hfollows⟩
  · obtain ⟨packet, -, hpacket⟩ := Option.bind_eq_some_iff.mp hsome
    rw [box_of_packetAction hpacket]
    exact h.empty i
  · rw [Mailboxes.names_step, List.length_append]
    omega

/-- **What the protobuf server does with its connections.** With at most `2 ^ 32` names among
them, its run on any connections is the run of the mailboxes on those that ask for something,
each answered as the mailboxes do, and no mailbox ever has anything in it. The other
connections change nothing, and nothing is sent over them. -/
theorem history_of_run {conns : List (List Recv)}
    {log : List (Entry Database (List Recv) (Option Handled))}
    (hnames : (conns.filterMap connectionName).length ≤ 2 ^ 32)
    (hrun : run (total (serveConnection iter)) .empty conns = .ok (db, log)) :
    (∃ t spec, run (total Mailboxes.step) .empty (conns.filterMap action) = .ok (t, spec) ∧
      Represents db t ∧ (∀ i, t.box i = []) ∧ List.Forall₂ Follows (followed action log) spec) ∧
    ∀ e ∈ log, action e.input = none →
      total (serveConnection iter) e.before e.input = .ok (e.before, e.output) ∧
        ∀ h ∈ e.output, h.sent = .ok [] := by
  have hstart : Tells .empty .empty conns :=
    ⟨Represents.empty, fun _ => rfl, (Nat.zero_add _).trans_le hnames⟩
  obtain ⟨t, spec, hspec, htells, hlog⟩ :=
    run_simulation (p := fun _ _ => True) (total Mailboxes.step) action Tells Follows
      (fun _ _ _ _ _ _ hsim _ hstep hf => hsim.stay hf (total_eq_ok.mp hstep))
      (fun _ t _ _ _ _ a hsim _ hstep hf =>
        ⟨_, _, rfl, hsim.move hf (total_eq_ok.mp hstep)⟩)
      hstart ((along_iff hrun).mpr fun _ _ => trivial) hrun
  refine ⟨⟨t, spec, hspec, htells.represents, htells.empty, hlog⟩, fun e he hnone => ?_⟩
  obtain ⟨db', hstep⟩ := step_of_mem_log hrun he
  obtain ⟨rfl, hsent⟩ := serveConnection_of_none hnone (total_eq_ok.mp hstep)
  exact ⟨hstep, hsent⟩

/-- A name, a message that is ignored, bytes that are none, and a question about the others. -/
theorem history_of_run_four_connections :
    let conns : List (List Recv) := [[.data (serialize (App.requestPacket (.register [65])))],
      [.wouldBlock, .data (serialize (App.requestPacket (.send 0 0 [104])))], [.data [255]],
      [.data (serialize (App.requestPacket (.users 0)))]]
    ∃ db log, run (total (serveConnection (.ascending _ _))) .empty conns = .ok (db, log) ∧
      conns.filterMap action = [.join [65], .look 0] ∧
      (∃ t spec, run (total Mailboxes.step) .empty (conns.filterMap action) = .ok (t, spec) ∧
        Represents db t ∧ (∀ i, t.box i = []) ∧
        List.Forall₂ Follows (followed action log) spec) ∧
      ∀ e ∈ log, action e.input = none →
        total (serveConnection (.ascending _ _)) e.before e.input = .ok (e.before, e.output) ∧
          ∀ h ∈ e.output, h.sent = .ok [] := by
  intro conns
  obtain ⟨db, log, hrun⟩ := exists_run_total (serveConnection (.ascending _ _)) .empty conns
  have hnames : conns.filterMap connectionName = [[65]] := by decide +kernel
  have hactions : conns.filterMap action = [.join [65], .look 0] := by decide +kernel
  exact ⟨db, log, hrun, hactions, history_of_run (by rw [hnames]; decide) hrun⟩

end ServerApp

end ChatApp
