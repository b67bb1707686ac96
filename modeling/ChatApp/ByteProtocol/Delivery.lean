import ChatApp.ByteProtocol.Memory
import ChatApp.ByteProtocol.System

set_option autoImplicit false

/-! # Delivery over whole runs

Over a run of the system from an empty database: what a user's Recv requests brought it,
followed by what still waits for it, is what was sent to it with success, in order
(`ExactlyOnce`).

The equation behind it holds of one step (`step_balance`), and over a run for what a user
receives once it is registered (`Inv.fifo`). It is not all that is appended under the user's
id: a Recv request under an id nobody holds yet is refused, and the refusal is decoded as
messages out of what the client's buffer held. `exactlyOnce_iff` says which runs are free of
that.
-/

namespace ChatApp

open Lib MccServer

namespace Net

variable {ι : Type} [DecidableEq ι]

/-- One request of a run, with the system before it and what its client decoded. -/
abbrev Event (ι : Type) := Entry (Net ι) (ι × Request) Outcome

/-! ## What a run delivers and accepts -/

/-- What was appended for a Recv request of user `U`. -/
def deliveredBy (U : UserId) (e : Event ι) : List Msg :=
  match e.input.2, e.output with
  | .recv id, .recv _ msgs => if id = U then msgs else []
  | _, _ => []

def delivered (U : UserId) (log : List (Event ι)) : List Msg := log.flatMap (deliveredBy U)

/-- The message of a Send request to `U` that was reported as sent. -/
def acceptedBy (U : UserId) (e : Event ι) : List Msg :=
  match e.input.2, e.output with
  | .send sourceId targetId msg, .send true .kSuccess =>
      if targetId = U then [⟨sourceId, msg⟩] else []
  | _, _ => []

def accepted (U : UserId) (log : List (Event ι)) : List Msg := log.flatMap (acceptedBy U)

/-- The status a Send request is owed. -/
def sendStatus (db : Database) (sourceId targetId : UserId) : SendStatus :=
  if !db.userExists sourceId then .kErrSrcId
  else if !db.userExists targetId then .kErrTrgtId
  else .kSuccess

/-- A Send request was reported with the status it was owed. -/
def StatusRight (e : Event ι) : Prop :=
  ∀ sourceId targetId msg, e.input.2 = .send sourceId targetId msg →
    e.output = .send true (sendStatus e.before.server.db sourceId targetId)

/-- The run comes to its end; every Send request is reported with the status it is owed; and
for every user registered in the end, what was delivered to it, followed by what still waits
for it, is what was accepted for it. -/
def ExactlyOnce (P : Platform) (net : Net ι) (cmds : List (ι × Request)) : Prop :=
  ∃ net' log, run (step P) net cmds = .ok (net', log) ∧ (∀ e ∈ log, StatusRight e) ∧
    ∀ U, net'.server.db.userExists U = true →
      delivered U log ++ net'.server.db.queueOf U = accepted U log

/-! ## What is assumed of a run -/

/-- The registrations among the requests. -/
def registrations (cmds : List (ι × Request)) : Nat := cmds.countP (·.2.isRegister)

/-- The run starts with an empty database, its packets fit, and the ids do not run out. -/
structure Assumed (P : Platform) (net : Net ι) (cmds : List (ι × Request)) : Prop where
  empty : net.server.db = .empty
  fits : Along (step P) (Fits P) net cmds
  registrations_le : registrations cmds ≤ 2 ^ 32

/-- The count of messages a refused Recv request is decoded with: what the client's buffer
holds behind the six bytes of the refusal. -/
def staleCount (P : Platform) (c : MccClient) : UInt32 :=
  P.byteOrder.ofBytes ((c.rxBuffer.drop 6).take 4)

/-- A Recv request under an id nobody holds yet does no harm: the records in the client's
buffer fit into it, and there are none if the id is one of the first `total`, those that are
assigned in the end. -/
def RecvHarmless (P : Platform) (total : Nat) (net : Net ι) (cmd : ι × Request) : Prop :=
  match cmd.2 with
  | .recv id =>
      net.server.db.userExists id = false →
        MccClient.RecordsFit P.byteOrder ((net.clients cmd.1).rxBuffer.drop 6) ∧
          (id.toNat < total → staleCount P (net.clients cmd.1) = 0)
  | _ => True

instance (P : Platform) (total : Nat) (net : Net ι) (cmd : ι × Request) :
    Decidable (RecvHarmless P total net cmd) :=
  match h : cmd.2 with
  | .register _ => .isTrue (by simp [RecvHarmless, h])
  | .users _ => .isTrue (by simp [RecvHarmless, h])
  | .send _ _ _ => .isTrue (by simp [RecvHarmless, h])
  | .recv id =>
      decidable_of_iff (net.server.db.userExists id = false →
        MccClient.RecordsFit P.byteOrder ((net.clients cmd.1).rxBuffer.drop 6) ∧
          (id.toNat < total → staleCount P (net.clients cmd.1) = 0)) (by simp [RecvHarmless, h])

/-! ## One step -/

section Step

variable {P : Platform} {net net' : Net ι} {cmd : ι × Request} {outcome : Outcome}

omit [DecidableEq ι] in
/-- The refusal of a Recv request has six bytes, and what the client's buffer held behind
the first six is what it is decoded with. -/
theorem handleResp_received_unknown {i : ι} {id : UserId}
    (hex : net.server.db.userExists id = false) :
    (received P net (i, .recv id)).handleResp P.byteOrder (.recv id)
      = (read32 P.byteOrder ((net.clients i).rxBuffer.drop 6) >>= fun numMessages =>
          MccClient.readRecords P.byteOrder (fun msgs id msg => msgs ++ [⟨id, msg⟩])
            numMessages.toNat (((net.clients i).rxBuffer.drop 6).drop 4) [] >>= fun msgs =>
          .ok (.recv true msgs)) := by
  have hreply : reply P net.server.db (.recv id) = negativeReply P net.server.db .kRespRecv := by
    simp [reply, recvReply, hex]
  have hret : (reply P net.server.db (.recv id)).ret
      = (reply P net.server.db (.recv id)).bytes.length := by
    rw [hreply]; simp [negativeReply]
  have hrx := received_rxBuffer P net (i, .recv id) hret
  have hsix : (reply P net.server.db (.recv id)).bytes.length = 6 := by
    rw [hreply]; simp [negativeReply, sizeofHeader]
  rw [hsix] at hrx
  exact handleResp_recv_unknown hex hrx

/-- The messages the loop over the records appends are as many as it was told. -/
theorem readRecords_msgs_length {bo : ByteOrder} {n : Nat} {payload : Bytes} {msgs : List Msg}
    (h : MccClient.readRecords bo (fun msgs id msg => msgs ++ [(⟨id, msg⟩ : Msg)]) n payload []
      = .ok msgs) : msgs.length = n := by
  obtain ⟨rs, ⟨hlen, -, -⟩, rfl⟩ := (MccClient.readRecords_eq_ok _ _).mp h
  have hfold (rs : List (UserId × Bytes)) (acc : List Msg) :
      (rs.foldl (fun msgs r => msgs ++ [(⟨r.1, r.2⟩ : Msg)]) acc).length
        = acc.length + rs.length := by
    induction rs generalizing acc with
    | nil => simp
    | cons r rs ih => rw [List.foldl_cons, ih]; simp; omega
  rw [hfold, hlen]
  exact Nat.zero_add n

omit [DecidableEq ι] in
/-- A refused Recv request that is decoded at all has the records fit, and brings no message
exactly if the count is zero. -/
theorem outcome_unknown {i : ι} {id : UserId} (hex : net.server.db.userExists id = false)
    (h : (received P net (i, .recv id)).handleResp P.byteOrder (.recv id) = .ok outcome) :
    MccClient.RecordsFit P.byteOrder ((net.clients i).rxBuffer.drop 6) ∧
      ∃ msgs, outcome = .recv true msgs ∧ (msgs = [] ↔ staleCount P (net.clients i) = 0) := by
  rw [handleResp_received_unknown hex] at h
  obtain ⟨n, hn, h⟩ := bind_eq_ok.mp h
  obtain ⟨msgs, hmsgs, h⟩ := bind_eq_ok.mp h
  have hcount : staleCount P (net.clients i) = n := by
    have hle := (read32_eq_ok.mp hn).length_le
    rw [ByteOrder.toBytes_length] at hle
    rw [read32_of_le hle, Except.ok.injEq] at hn
    exact hn
  refine ⟨(MccClient.readRecords_isOk _ _ _).mp ⟨msgs, bind_eq_ok.mpr ⟨n, hn, hmsgs⟩⟩,
    msgs, (Except.ok.inj h).symm, ?_⟩
  rw [hcount, ← List.length_eq_zero_iff, readRecords_msgs_length hmsgs, ← UInt32.toNat_inj]
  rfl

/-- A step that meets the assumptions comes back, unless it is a refused Recv request whose
records do not fit. -/
theorem step_isOk (hfits : Fits P net cmd) (hshort : ShortMsgs net.server.db)
    (hrecords : ∀ id, cmd.2 = .recv id → net.server.db.userExists id = false →
      MccClient.RecordsFit P.byteOrder ((net.clients cmd.1).rxBuffer.drop 6)) :
    ∃ net' outcome, net.step P cmd = .ok (net', outcome) := by
  rw [step_eq hfits]
  by_cases hknown : ∀ id, cmd.2 = .recv id → net.server.db.userExists id = true
  · obtain ⟨rest, hrx⟩ := exists_received_rxBuffer hfits
    rw [handleResp_reply hshort hfits.response_lt hrx hknown]
    exact ⟨_, _, rfl⟩
  · simp only [not_forall, Bool.not_eq_true] at hknown
    obtain ⟨id, hcmd, hex⟩ := hknown
    obtain ⟨i, r⟩ := cmd
    obtain rfl : r = .recv id := hcmd
    obtain ⟨msgs, hmsgs⟩ := (MccClient.readRecords_isOk
      (fun msgs id msg => msgs ++ [(⟨id, msg⟩ : Msg)]) _ []).mpr (hrecords id rfl hex)
    rw [handleResp_received_unknown hex, ← bind_assoc, hmsgs]
    exact ⟨_, _, rfl⟩

/-- What a step leads to: the client has learnt the answer, or its request was a Recv request
under an id nobody holds. -/
theorem step_outcome (hfits : Fits P net cmd) (hshort : ShortMsgs net.server.db)
    (hstep : net.step P cmd = .ok (net', outcome)) :
    net' = after P net cmd ∧ (outcome = answer P net.server.db cmd.2 ∨
      ∃ id, cmd.2 = .recv id ∧ net.server.db.userExists id = false) := by
  rw [step_eq hfits] at hstep
  obtain ⟨o, ho, hstep⟩ := bind_eq_ok.mp hstep
  simp only [Except.ok.injEq, Prod.mk.injEq] at hstep
  obtain ⟨rfl, rfl⟩ := hstep
  refine ⟨rfl, ?_⟩
  by_cases hknown : ∀ id, cmd.2 = .recv id → net.server.db.userExists id = true
  · obtain ⟨rest, hrx⟩ := exists_received_rxBuffer hfits
    rw [handleResp_reply hshort hfits.response_lt hrx hknown, Except.ok.injEq] at ho
    exact .inl ho.symm
  · simpa using Or.inr hknown

end Step

/-! ## The database after a step -/

section Database

variable (P : Platform) (db : Database)

/-- A registration adds the next id; no other request changes who exists. -/
theorem userExists_reply (r : Request) (U : UserId) :
    (reply P db r).db.userExists U = true ↔
      (r.isRegister = true ∧ db.nextId = U) ∨ db.userExists U = true := by
  cases r with
  | register username =>
      simpa [reply, registerReply, Request.isRegister] using
        db.userExists_registerUser username U
  | users id => simp [reply, usersReply_db, Request.isRegister]
  | send sourceId targetId msg =>
      simp only [reply, sendReply, sendEffect, Request.isRegister]
      split_ifs <;> simp
  | recv id =>
      simp only [reply, recvReply, Request.isRegister]
      split_ifs with hex
      · simp [negativeReply]
      · simp [Database.userExists_clearMsgs (by simpa using hex)]

theorem nextId_reply (r : Request) :
    (reply P db r).db.nextId = if r.isRegister then db.nextId + 1 else db.nextId := by
  cases r with
  | register username => rfl
  | users id => simp [reply, usersReply_db, Request.isRegister]
  | send sourceId targetId msg =>
      simp only [reply, sendReply, sendEffect, Request.isRegister, Bool.false_eq_true, if_false]
      split_ifs <;> simp
  | recv id =>
      simp only [reply, recvReply, Request.isRegister, Bool.false_eq_true, if_false]
      split_ifs <;> simp [negativeReply]

/-- The status a Send request is answered with is the one it is owed. -/
theorem ofByte_sendEffect (sourceId targetId : UserId) (msg : Bytes) :
    SendStatus.ofByte (sendEffect db sourceId targetId msg).1
      = sendStatus db sourceId targetId := by
  unfold sendEffect sendStatus
  split_ifs <;> rfl

/-- The queue of a user after a Send request. -/
theorem queueOf_sendEffect (sourceId targetId : UserId) (msg : Bytes) (U : UserId) :
    (sendEffect db sourceId targetId msg).2.queueOf U
      = db.queueOf U ++ if sendStatus db sourceId targetId = .kSuccess then
          if targetId = U then [⟨sourceId, msg⟩] else [] else [] := by
  unfold sendEffect sendStatus
  by_cases hsrc : db.userExists sourceId = true
  · by_cases htrgt : db.userExists targetId = true
    · simp [hsrc, htrgt, Database.queueOf_queueMsg htrgt]
    · simp [hsrc, htrgt]
  · simp [hsrc]

omit [DecidableEq ι] in
/-- **The balance of one step**: what it delivers to a registered user and what then waits
for the user are what waited and what the step accepts. -/
theorem step_balance {net : Net ι} {i : ι} {r : Request} {outcome : Outcome}
    (houtcome : outcome = answer P net.server.db r ∨
      ∃ id, r = .recv id ∧ net.server.db.userExists id = false)
    (hfresh : r.isRegister = true → net.server.db.userExists net.server.db.nextId = false)
    (U : UserId) :
    (if net.server.db.userExists U then deliveredBy U ⟨net, (i, r), outcome⟩ else [])
        ++ (reply P net.server.db r).db.queueOf U
      = net.server.db.queueOf U ++ acceptedBy U ⟨net, (i, r), outcome⟩ := by
  cases r with
  | register username =>
      -- The id handed out is nobody's yet, so the new empty queue replaces no messages.
      have hqueue : net.server.db.nextId = U → net.server.db.queueOf U = [] := by
        rintro rfl
        exact Database.queueOf_of_none ((Database.userExists_eq_false _ _).mp (hfresh rfl))
      by_cases hU : net.server.db.nextId = U
      · simp [deliveredBy, acceptedBy, reply, registerReply, Database.queueOf_registerUser, hU,
          hqueue hU]
      · simp [deliveredBy, acceptedBy, reply, registerReply, Database.queueOf_registerUser, hU]
  | users id => simp [deliveredBy, acceptedBy, reply, usersReply_db]
  | send sourceId targetId msg =>
      obtain rfl : outcome = answer P net.server.db (.send sourceId targetId msg) := by
        simpa using houtcome
      simp only [deliveredBy, acceptedBy, answer, reply, sendReply, ofByte_sendEffect,
        queueOf_sendEffect, ite_self, List.nil_append]
      cases sendStatus net.server.db sourceId targetId <;> simp
  | recv id =>
      by_cases hex : net.server.db.userExists id = true
      · obtain rfl : outcome = answer P net.server.db (.recv id) := by
          simpa [hex] using houtcome
        by_cases hU : id = U
        · subst hU
          simp [deliveredBy, acceptedBy, answer, reply, recvReply, hex,
            Database.queueOf_clearMsgs hex]
        · simp [deliveredBy, acceptedBy, answer, reply, recvReply, hex, hU,
            Database.queueOf_clearMsgs hex]
      -- Nobody holds the id: no registered user is concerned, whatever the client makes of
      -- the refusal.
      · have hne : net.server.db.userExists U = true → id ≠ U := by
          rintro hU rfl
          exact hex hU
        by_cases hU : net.server.db.userExists U = true
        · have hnone : deliveredBy U (⟨net, (i, .recv id), outcome⟩ : Event ι) = [] := by
            cases outcome <;> simp [deliveredBy, hne hU]
          simp [hnone, acceptedBy, reply, recvReply, negativeReply, hex]
        · simp [acceptedBy, reply, recvReply, negativeReply, hex, hU]

/-- A message that waits after a request waited before it or is the request's. -/
theorem mem_queueOf_reply {r : Request} {U : UserId} {m : Msg}
    (hm : m ∈ (reply P db r).db.queueOf U) : m ∈ db.queueOf U ∨ m.msg ∈ r.msg? := by
  cases r with
  | register username =>
      rw [reply, registerReply, Database.queueOf_registerUser] at hm
      split_ifs at hm with hU
      · cases hm
      · exact .inl hm
  | users id =>
      rw [reply, usersReply_db] at hm
      exact .inl hm
  | send sourceId targetId msg =>
      rw [reply, sendReply, queueOf_sendEffect, List.mem_append] at hm
      rcases hm with hm | hm
      · exact .inl hm
      · split_ifs at hm with hok hU
        · exact .inr (by simp [List.mem_singleton.mp hm, Request.msg?])
        · cases hm
        · cases hm
  | recv id =>
      rw [reply, recvReply] at hm
      split_ifs at hm with hex
      · exact .inl hm
      · rw [Database.queueOf_clearMsgs (by simpa using hex)] at hm
        split_ifs at hm with hU
        · cases hm
        · exact .inl hm

end Database

/-! ## Whole runs -/

/-- The user was registered when the request was made. -/
def registeredAt (U : UserId) (e : Event ι) : Bool := e.before.server.db.userExists U

/-- The invariant: `total` registrations in all, of which those in the log have been made. -/
structure Inv (total : Nat) (net : Net ι) (log : List (Event ι)) (rest : List (ι × Request)) :
    Prop where
  count : registrations (log.map Entry.input) + registrations rest = total
  nextId : net.server.db.nextId = UInt32.ofNat (registrations (log.map Entry.input))
  exists_iff : ∀ id, net.server.db.userExists id = true ↔
    id.toNat < registrations (log.map Entry.input)
  short : ShortMsgs net.server.db
  status : ∀ e ∈ log, StatusRight e
  fifo : ∀ U, delivered U (log.filter (registeredAt U)) ++ net.server.db.queueOf U
    = accepted U log

variable {P : Platform} {net net' : Net ι} {cmd : ι × Request} {outcome : Outcome}
  {log : List (Event ι)} {cmds : List (ι × Request)} {total : Nat}

omit [DecidableEq ι] in
theorem Inv.initial (hempty : net.server.db = .empty) :
    Inv (registrations cmds) net [] cmds where
  count := by simp [registrations]
  nextId := by rw [hempty]; rfl
  exists_iff := by simp [hempty, registrations, Database.userExists]
  short := by
    intro id m hm
    rw [hempty, Database.queueOf_empty] at hm
    cases hm
  status := by simp
  fifo := by simp [delivered, accepted, hempty]

omit [DecidableEq ι] in
/-- A request that fits has a short message. -/
theorem Fits.msg_short (hfits : Fits P net cmd) {msg : Bytes} (hmsg : msg ∈ cmd.2.msg?) :
    msg.length < 2 ^ 32 := by
  have hlen := hfits.sendable.1
  cases hr : cmd.2 with
  | send sourceId targetId msg' =>
      obtain rfl : msg' = msg := by simpa [hr, Request.msg?] using hmsg
      simp only [hr, MccClient.requestBytes, MccClient.sendBytes, List.length_append,
        Header.bytes_length] at hlen
      omega
  | _ => simp [hr, Request.msg?] at hmsg

omit [DecidableEq ι] in
/-- The next id is fresh as long as ids are left. -/
theorem Inv.fresh (hinv : Inv total net log (cmd :: cmds)) (htotal : total ≤ 2 ^ 32)
    (hreg : cmd.2.isRegister = true) :
    net.server.db.nextId.toNat = registrations (log.map Entry.input) ∧
      net.server.db.userExists net.server.db.nextId = false := by
  have hcount := hinv.count
  have hlt : registrations (log.map Entry.input) < 2 ^ 32 := by
    have hpos : 0 < registrations (cmd :: cmds) := by
      simp [registrations, hreg]
    omega
  have hnat : net.server.db.nextId.toNat = registrations (log.map Entry.input) := by
    rw [hinv.nextId, UInt32.toNat_ofNat', Nat.mod_eq_of_lt hlt]
  refine ⟨hnat, ?_⟩
  rw [← Bool.not_eq_true, hinv.exists_iff, hnat]
  exact lt_irrefl _

/-- **A step keeps the invariant.** -/
theorem Inv.step (hinv : Inv total net log (cmd :: cmds)) (htotal : total ≤ 2 ^ 32)
    (hfits : Fits P net cmd) (hstep : net.step P cmd = .ok (net', outcome)) :
    Inv total net' (log ++ [⟨net, cmd, outcome⟩]) cmds := by
  obtain ⟨rfl, houtcome⟩ := step_outcome hfits hinv.short hstep
  have hfresh := hinv.fresh htotal
  have hmsg (msg : Bytes) (h : msg ∈ cmd.2.msg?) := hfits.msg_short h
  -- The counts of the log and of what is left move together, by one on a Register.
  obtain ⟨i, r⟩ := cmd
  have hlog : registrations ((log ++ [(⟨net, (i, r), outcome⟩ : Event ι)]).map Entry.input)
      = registrations (log.map Entry.input) + if r.isRegister then 1 else 0 := by
    simp [registrations, List.countP_singleton]
  have hcount := hinv.count
  have hcons : registrations ((i, r) :: cmds)
      = registrations cmds + if r.isRegister then 1 else 0 := List.countP_cons
  refine ⟨?_, ?_, fun id => ?_, fun U m hm => ?_, ?_, fun U => ?_⟩
  · rw [hlog]
    rw [hcons] at hcount
    omega
  · rw [hlog]
    show (reply P net.server.db r).db.nextId = _
    rw [nextId_reply, hinv.nextId]
    split_ifs with hreg
    · rw [UInt32.ofNat_add]; rfl
    · rfl
  · rw [hlog]
    show (reply P net.server.db r).db.userExists id = true ↔ _
    rw [userExists_reply, hinv.exists_iff]
    by_cases hreg : r.isRegister = true
    -- The new user is the one whose id is the number of registrations so far.
    · have hnext := (hfresh hreg).1
      simp only [hreg, true_and, if_true, ← UInt32.toNat_inj, hnext]
      omega
    · simp [hreg]
  · rcases mem_queueOf_reply P net.server.db hm with hm | hm
    · exact hinv.short U m hm
    · exact hmsg m.msg hm
  · refine forall_mem_concat hinv.status ?_
    rintro sourceId targetId msg rfl
    simpa [answer, ofByte_sendEffect] using houtcome
  · have hbalance := step_balance P (i := i) houtcome (fun hreg => (hfresh hreg).2) U
    have hfifo := hinv.fifo U
    simp only [delivered, accepted, List.filter_append, List.flatMap_append] at hfifo ⊢
    -- What a step brings to an id that nobody held is not counted as delivered.
    rw [List.flatMap_singleton, ← hfifo, List.append_assoc, List.append_assoc, ← hbalance]
    by_cases hU : net.server.db.userExists U = true
    · simp [registeredAt, hU, after]
    · simp [registeredAt, hU, after]

/-- A run that comes to its end keeps the invariant. -/
theorem Inv.of_run (h : Assumed P net cmds) (hrun : run (Net.step P) net cmds = .ok (net', log)) :
    Inv (registrations cmds) net' log [] :=
  run_induction_of_ok (I := Inv (registrations cmds))
    (fun _ _ _ _ _ _ hinv hfits hstep => hinv.step h.registrations_le hfits hstep)
    (Inv.initial h.empty) h.fits hrun

/-- Dropping the entries that bring nothing changes nothing, and dropping any other does. -/
theorem flatMap_filter_eq_iff {α β : Type} (f : α → List β) (p : α → Bool) (l : List α) :
    (l.filter p).flatMap f = l.flatMap f ↔ ∀ a ∈ l, p a = false → f a = [] := by
  have hle (l : List α) : ((l.filter p).flatMap f).length ≤ (l.flatMap f).length := by
    induction l with
    | nil => simp
    | cons a l ih =>
        by_cases ha : p a = true
        · simp only [List.filter_cons_of_pos ha, List.flatMap_cons, List.length_append]; omega
        · simp only [List.filter_cons_of_neg ha, List.flatMap_cons, List.length_append]; omega
  induction l with
  | nil => simp
  | cons a l ih =>
      by_cases ha : p a = true
      · simp [List.filter_cons_of_pos ha, ha, ih]
      · rw [List.filter_cons_of_neg ha, List.forall_mem_cons, List.flatMap_cons]
        constructor
        · intro h
          have hnil : f a = [] := by
            have hlen := congrArg List.length h
            have hle := hle l
            rw [List.length_append] at hlen
            exact List.length_eq_zero_iff.mp (by omega)
          exact ⟨fun _ => hnil, ih.mp (by simpa [hnil] using h)⟩
        · rintro ⟨hnil, h⟩
          rw [hnil (by simpa using ha), List.nil_append]
          exact ih.mpr h

/-- A refused Recv request in a log. -/
theorem event_unknown (h : Assumed P net cmds)
    (hrun : run (Net.step P) net cmds = .ok (net', log)) {before : Net ι} {i : ι} {id : UserId}
    (he : ⟨before, (i, .recv id), outcome⟩ ∈ log)
    (hex : before.server.db.userExists id = false) :
    MccClient.RecordsFit P.byteOrder ((before.clients i).rxBuffer.drop 6) ∧
      ∃ msgs, outcome = .recv true msgs ∧
        (msgs = [] ↔ staleCount P (before.clients i) = 0) := by
  have hfits := (along_iff hrun).mp h.fits _ he
  obtain ⟨t, ht⟩ := step_of_mem_log hrun he
  rw [step_eq hfits] at ht
  obtain ⟨o, ho, ht⟩ := bind_eq_ok.mp ht
  simp only [Except.ok.injEq, Prod.mk.injEq] at ht
  exact outcome_unknown hex (ht.2 ▸ ho)

/-- In a run that comes to its end, a registered user got what was sent to it and nothing
else exactly if no Recv request under its id was decoded as messages while nobody held the
id. -/
theorem delivered_eq_iff (h : Assumed P net cmds)
    (hrun : run (Net.step P) net cmds = .ok (net', log)) (U : UserId) :
    delivered U log ++ net'.server.db.queueOf U = accepted U log ↔
      ∀ e ∈ log, e.input.2 = .recv U → e.before.server.db.userExists U = false →
        staleCount P (e.before.clients e.input.1) = 0 := by
  rw [← (Inv.of_run h hrun).fifo U, List.append_cancel_right_eq, eq_comm, delivered, delivered,
    flatMap_filter_eq_iff]
  refine forall₂_congr fun e he => ?_
  obtain ⟨before, ⟨i, r⟩, outcome⟩ := e
  cases r with
  | recv id =>
      by_cases hU : id = U
      · subst hU
        simp only [forall_const]
        refine forall_congr' fun hex => ?_
        obtain ⟨-, msgs, rfl, hstale⟩ := event_unknown h hrun he hex
        simpa [deliveredBy] using hstale
      · cases outcome <;> simp [deliveredBy, hU]
  | _ => simp [deliveredBy]

/-- **Delivery is exactly once and in order exactly on the runs whose refused Recv requests
do no harm.** -/
theorem exactlyOnce_iff (h : Assumed P net cmds) :
    ExactlyOnce P net cmds ↔
      Along (Net.step P) (RecvHarmless P (registrations cmds)) net cmds := by
  constructor
  · rintro ⟨net', log, hrun, -, hfifo⟩
    rw [along_iff hrun]
    rintro ⟨before, ⟨i, r⟩, outcome⟩ he
    cases r with
    -- An id below the number of registrations is held at the end, so its queue is counted.
    | recv id =>
        intro hex
        refine ⟨(event_unknown h hrun he hex).1, fun hlt => ?_⟩
        have hinv := Inv.of_run h hrun
        have hcount : registrations (log.map Entry.input) = registrations cmds := hinv.count
        have hid : net'.server.db.userExists id = true := (hinv.exists_iff id).mpr (hcount ▸ hlt)
        exact (delivered_eq_iff h hrun id).mp (hfifo id hid) _ he rfl hex
    | _ => trivial
  · intro hharmless
    obtain ⟨net', log, hrun, hinv⟩ := run_induction (I := Inv (registrations cmds))
      (fun net log cmd cmds hinv hp => by
        have hrecords : ∀ id, cmd.2 = .recv id → net.server.db.userExists id = false →
            MccClient.RecordsFit P.byteOrder ((net.clients cmd.1).rxBuffer.drop 6) := by
          intro id hcmd hex
          have hharm := hp.2
          simp only [RecvHarmless, hcmd] at hharm
          exact (hharm hex).1
        obtain ⟨net', outcome, hstep⟩ := step_isOk hp.1 hinv.short hrecords
        exact ⟨net', outcome, hstep, hinv.step h.registrations_le hp.1 hstep⟩)
      (Inv.initial h.empty) (h.fits.and hharmless)
    refine ⟨net', log, hrun, hinv.status, fun U hU => ?_⟩
    refine (delivered_eq_iff h hrun U).mpr ?_
    rintro ⟨before, ⟨i, r⟩, outcome⟩ he rfl hex
    have hcount : registrations (log.map Entry.input) = registrations cmds := hinv.count
    exact ((along_iff hrun).mp hharmless _ he hex).2 (hcount ▸ (hinv.exists_iff U).mp hU)

/-- A little-endian server nobody has used yet, and its only client. -/
def fresh : Net Unit where
  server := ⟨.empty, List.replicate 40 0⟩
  clients := fun _ => ⟨List.replicate 40 0, List.replicate 40 0⟩

theorem exactlyOnce_one_message :
    ExactlyOnce .littleEndian fresh
      [((), .register [65]), ((), .register [66]), ((), .send 0 1 [104, 105]), ((), .recv 1)] :=
  (exactlyOnce_iff ⟨rfl, by decide +kernel, by decide⟩).mpr (by decide +kernel)

/-- Two users register, the second asks for the messages of user 2, who is registered next.
The refusal is decoded with the id of the last Register response as the count: user 2 gets
an empty message from user 0 that nobody sent. -/
theorem not_exactlyOnce_early_recv :
    let cmds := [((), Request.register []), ((), .register []), ((), .recv 2), ((), .register [])]
    Assumed .littleEndian fresh cmds ∧ ¬ExactlyOnce .littleEndian fresh cmds := by
  refine ⟨⟨rfl, by decide +kernel, by decide⟩, ?_⟩
  rintro ⟨net', log, hrun, -, hfifo⟩
  have heval : (run (Net.step .littleEndian) fresh
      [((), Request.register []), ((), .register []), ((), .recv 2), ((), .register [])]).map
        (fun out => (out.1.server.db.userExists 2,
          delivered 2 out.2 ++ out.1.server.db.queueOf 2, accepted 2 out.2))
      = .ok (true, [⟨0, []⟩], []) := by decide +kernel
  rw [hrun] at heval
  simp only [Except.map, Except.ok.injEq, Prod.mk.injEq] at heval
  obtain ⟨hex, hdelivered, haccepted⟩ := heval
  have hin := hfifo 2 hex
  rw [hdelivered, haccepted] at hin
  cases hin

end Net

end ChatApp
