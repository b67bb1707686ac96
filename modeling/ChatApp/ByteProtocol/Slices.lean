import ChatApp.ByteProtocol.Commute
import ChatApp.ByteProtocol.Delivery
import ChatApp.Lib.Simulation

set_option autoImplicit false

/-! # What a client can notice of the others

Messages to one user are no concern of another. A choice of requests that has every
registration, and with a Recv request everything that touches the queue it drains, gets from
the server alone what it gets in the whole run (`slice_of_run`): the other requests might as
well not have been made. So the order of two requests matters only if one of them is a
registration or both touch one queue, over whole runs and not just for neighbours
(`exchanges_of_same_order`).

The traversal of the users is taken to depend on the ids alone (`Traversal.Stable`).
-/

namespace ChatApp

open Lib Database MccServer

/-- A database is its counter, its users' names and their queues. -/
theorem Database.ext_of_parts {db db' : Database} (hnext : db.nextId = db'.nextId)
    (hname : ∀ id, db.nameOf id = db'.nameOf id) (hqueue : ∀ id, db.queueOf id = db'.queueOf id) :
    db = db' := by
  refine Database.ext hnext fun id => ?_
  have hn := hname id
  have hq := hqueue id
  rw [nameOf, nameOf] at hn
  rcases h : db.find id with _ | u
  · rcases h' : db'.find id with _ | u'
    · rfl
    · simp [h, h'] at hn
  · rcases h' : db'.find id with _ | u'
    · simp [h, h'] at hn
    · rw [queueOf_of_find h, queueOf_of_find h'] at hq
      have hu : u.username = u'.username := by simpa [h, h'] using hn
      obtain ⟨username, msgQ⟩ := u
      simp only at hu hq
      rw [hu, hq]

/-! ## What a request can see -/

/-- Databases with the same users, which differ at most in queues that are not watched. -/
structure SeesSame (watched : UserId → Bool) (db db' : Database) : Prop where
  nextId : db'.nextId = db.nextId
  nameOf : ∀ id, db'.nameOf id = db.nameOf id
  queueOf : ∀ id, watched id = true → db'.queueOf id = db.queueOf id

namespace SeesSame

variable {watched : UserId → Bool} {db db' : Database} {P : Platform}

theorem refl (watched : UserId → Bool) (db : Database) : SeesSame watched db db :=
  ⟨rfl, fun _ => rfl, fun _ _ => rfl⟩

theorem userExists (h : SeesSame watched db db') (id : UserId) :
    db'.userExists id = db.userExists id := by
  rw [userExists_eq_nameOf, userExists_eq_nameOf, h.nameOf]

/-- The users stand in the same order. -/
theorem order (h : SeesSame watched db db') (hstable : P.iter.Stable) :
    (P.iter.order db'.userMap).map (fun e => (e.1, e.2.username))
      = (P.iter.order db.userMap).map (fun e => (e.1, e.2.username)) := by
  have hkeys : ∀ k, k ∈ db'.userMap ↔ k ∈ db.userMap := by
    intro k
    rw [UnorderedMap.mem_iff_getElem?, UnorderedMap.mem_iff_getElem?]
    show (∃ u, db'.find k = some u) ↔ ∃ u, db.find k = some u
    rw [← userExists_iff, ← userExists_iff, h.userExists]
  have hnames : (fun id => (id, (db'.nameOf id).getD []))
      = fun id => (id, (db.nameOf id).getD []) :=
    funext fun id => by rw [h.nameOf]
  rw [map_order, map_order, hstable.keys_eq hkeys, hnames]

theorem listedUsers (h : SeesSame watched db db') (hstable : P.iter.Stable) (id : UserId) :
    MccServer.listedUsers P db' id = MccServer.listedUsers P db id := by
  have hfilter (db : Database) : MccServer.listedUsers P db id
      = ((P.iter.order db.userMap).map (fun e => (e.1, e.2.username))).filter
          (fun e => e.1 ≠ id) := by
    rw [MccServer.listedUsers, otherUsers, List.filter_map]
    rfl
  rw [hfilter, hfilter, h.order hstable]

theorem getNumUsers (h : SeesSame watched db db') (hstable : P.iter.Stable) :
    db'.getNumUsers = db.getNumUsers := by
  have hlength := congrArg List.length (h.order hstable)
  rw [List.length_map, List.length_map, P.iter.order_length, P.iter.order_length] at hlength
  rw [Database.getNumUsers, Database.getNumUsers, hlength]

theorem sendStatus (h : SeesSame watched db db') (sourceId targetId : UserId) :
    Net.sendStatus db' sourceId targetId = Net.sendStatus db sourceId targetId := by
  rw [Net.sendStatus, Net.sendStatus, h.userExists, h.userExists]

/-- What a reply says depends on the users and on the queue it drains. -/
theorem reply (h : SeesSame watched db db') (hstable : P.iter.Stable) {r : Request}
    (hrecv : ∀ id, r = .recv id → watched id = true) :
    (MccServer.reply P db' r).bytes = (MccServer.reply P db r).bytes ∧
      (MccServer.reply P db' r).ret = (MccServer.reply P db r).ret := by
  match r with
  | .register username => exact ⟨by simp only [MccServer.reply, registerReply, h.nextId], rfl⟩
  | .users id =>
      have hpayload : usersPayload P db' id = usersPayload P db id := by
        rw [usersPayload, usersPayload, flatMap_otherUsers, flatMap_otherUsers,
          h.listedUsers hstable, h.getNumUsers hstable]
      simp only [MccServer.reply, usersReply, h.userExists, h.getNumUsers hstable, hpayload]
      split_ifs <;> exact ⟨rfl, rfl⟩
  | .send sourceId targetId msg =>
      have heffect : (sendEffect db' sourceId targetId msg).1
          = (sendEffect db sourceId targetId msg).1 := by
        simp only [sendEffect, h.userExists]
        split_ifs <;> rfl
      exact ⟨by rw [MccServer.reply, MccServer.reply, sendReply, sendReply, heffect], rfl⟩
  | .recv id =>
      simp only [MccServer.reply, recvReply, h.userExists, h.queueOf id (hrecv id rfl)]
      split_ifs <;> exact ⟨rfl, rfl⟩

/-- So does what the client learns from it. -/
theorem answer (h : SeesSame watched db db') (hstable : P.iter.Stable) {r : Request}
    (hrecv : ∀ id, r = .recv id → watched id = true) :
    MccServer.answer P db' r = MccServer.answer P db r := by
  match r with
  | .register username => exact congrArg (Outcome.register true) h.nextId
  | .users id =>
      have hlisted (db : Database) : (otherUsers P db id).foldl
            (fun (m : UnorderedMap Bytes UserId) it => m.insert it.2.username it.1) ∅
          = (MccServer.listedUsers P db id).foldl (fun m r => m.insert r.2 r.1) ∅ := by
        rw [MccServer.listedUsers, List.foldl_map]
      rw [MccServer.answer, MccServer.answer, h.userExists, hlisted, hlisted,
        h.listedUsers hstable]
  | .send sourceId targetId msg =>
      rw [MccServer.answer, MccServer.answer, Net.ofByte_sendEffect, Net.ofByte_sendEffect,
        h.sendStatus]
  | .recv id => exact congrArg (Outcome.recv true) (h.queueOf id (hrecv id rfl))

/-- A request that both databases serve leaves them looking the same. -/
theorem reply_db (h : SeesSame watched db db') (r : Request) :
    SeesSame watched (MccServer.reply P db r).db (MccServer.reply P db' r).db where
  nextId := by
    rw [Net.nextId_reply, Net.nextId_reply, h.nextId]
  nameOf := by
    intro id
    by_cases hr : r.isRegister = true
    · obtain ⟨username, rfl⟩ : ∃ username, r = .register username := by
        match r with
        | .register username => exact ⟨username, rfl⟩
      show (db'.registerUser username).2.nameOf id = (db.registerUser username).2.nameOf id
      rw [nameOf_registerUser, nameOf_registerUser, h.nextId, h.nameOf]
    · rw [Bool.not_eq_true] at hr
      rw [(onlyQueue_reply hr).nameOf_eq, (onlyQueue_reply hr).nameOf_eq, h.nameOf]
  queueOf := by
    intro id hid
    match r with
    | .register username =>
        show (db'.registerUser username).2.queueOf id = (db.registerUser username).2.queueOf id
        rw [queueOf_registerUser, queueOf_registerUser, h.nextId, h.queueOf id hid]
    | .users k =>
        show (usersReply P db' k).db.queueOf id = (usersReply P db k).db.queueOf id
        rw [usersReply_db, usersReply_db, h.queueOf id hid]
    | .send sourceId targetId msg =>
        show (sendEffect db' sourceId targetId msg).2.queueOf id
          = (sendEffect db sourceId targetId msg).2.queueOf id
        rw [Net.queueOf_sendEffect, Net.queueOf_sendEffect, h.sendStatus, h.queueOf id hid]
    | .recv k =>
        simp only [MccServer.reply, recvReply, h.userExists]
        by_cases hex : db.userExists k = true
        · simp only [hex, Bool.not_true, Bool.false_eq_true, if_false]
          rw [queueOf_clearMsgs hex, queueOf_clearMsgs ((h.userExists k).trans hex),
            h.queueOf id hid]
        · simp only [hex, Bool.not_false, if_true, negativeReply]
          exact h.queueOf id hid

/-- A request that touches no watched queue, and registers nobody, changes nothing that is
seen. -/
theorem of_untouched (h : SeesSame watched db db') {r : Request} (hr : r.isRegister = false)
    (hq : ∀ k, r.queue? = some k → watched k = false) :
    SeesSame watched (MccServer.reply P db r).db db' where
  nextId := by
    rw [Net.nextId_reply, hr]
    exact h.nextId
  nameOf := by
    intro id
    rw [(onlyQueue_reply hr).nameOf_eq, h.nameOf]
  queueOf := by
    intro id hid
    have hne : r.queue? ≠ some id := by
      intro heq
      rw [hq id heq] at hid
      cases hid
    rw [(onlyQueue_reply hr).queueOf_eq hne, h.queueOf id hid]

end SeesSame

namespace Net

variable {ι : Type} [DecidableEq ι] {P : Platform} {net net' : Net ι} {cmd : ι × Request}

/-! ## The buffers -/

/-- Buffers of the same sizes. -/
structure SameSizes (net net' : Net ι) : Prop where
  server : net'.server.txBuffer.length = net.server.txBuffer.length
  tx : ∀ i, (net'.clients i).txBuffer.length = (net.clients i).txBuffer.length
  rx : ∀ i, (net'.clients i).rxBuffer.length = (net.clients i).rxBuffer.length

omit [DecidableEq ι] in
theorem SameSizes.trans {net'' : Net ι} (h : SameSizes net net') (h' : SameSizes net' net'') :
    SameSizes net net'' where
  server := h'.server.trans h.server
  tx := fun i => (h'.tx i).trans (h.tx i)
  rx := fun i => (h'.rx i).trans (h.rx i)

omit [DecidableEq ι] in
theorem SameSizes.symm (h : SameSizes net net') : SameSizes net' net where
  server := h.server.symm
  tx := fun i => (h.tx i).symm
  rx := fun i => (h.rx i).symm

/-- A step resizes no buffer. -/
theorem sameSizes_after (hfits : Fits P net cmd) : SameSizes net (after P net cmd) := by
  have hover {new old : Bytes} (h : new.length ≤ old.length) :
      (new ++ old.drop new.length).length = old.length := by
    rw [List.length_append, List.length_drop]
    omega
  have hret := reply_length_le_ret P hfits.response_lt
  have hreply : (reply P net.server.db cmd.2).bytes.length ≤ net.server.txBuffer.length :=
    hret.trans hfits.response_le_tx
  have hsent : ((((reply P net.server.db cmd.2).bytes ++ net.server.txBuffer.drop
      (reply P net.server.db cmd.2).bytes.length).take (reply P net.server.db cmd.2).ret)
        ++ (net.clients cmd.1).rxBuffer.drop (reply P net.server.db cmd.2).ret).length
      = (net.clients cmd.1).rxBuffer.length := by
    have htx := hfits.response_le_tx
    have hrx := hfits.response_le_rx
    rw [List.length_append, List.length_take, hover hreply, List.length_drop]
    omega
  refine ⟨hover hreply, fun i => ?_, fun i => ?_⟩
  all_goals
    by_cases hi : i = cmd.1
    · subst hi
      simp only [after, Function.update_self, received]
      first
        | exact hover hfits.request_le
        | exact hsent
    · simp only [after, Function.update_of_ne hi]

/-! ## Slices of a run -/

/-- The id of a Recv request is somebody's. -/
def Held (net : Net ι) (cmd : ι × Request) : Prop :=
  match cmd.2 with
  | .recv id => net.server.db.userExists id = true
  | _ => True

instance (net : Net ι) (cmd : ι × Request) : Decidable (Held net cmd) :=
  match h : cmd.2 with
  | .register _ => .isTrue (by simp [Held, h])
  | .users _ => .isTrue (by simp [Held, h])
  | .send _ _ _ => .isTrue (by simp [Held, h])
  | .recv id => decidable_of_iff (net.server.db.userExists id = true) (by simp [Held, h])

omit [DecidableEq ι] in
theorem Held.exists (h : Held net cmd) : ∀ id, cmd.2 = .recv id →
    net.server.db.userExists id = true := by
  intro id hid
  simpa [Held, hid] using h

/-- A step whose packets fit into the buffers and that polls for somebody. -/
def Smooth (P : Platform) (net : Net ι) (cmd : ι × Request) : Prop := Fits P net cmd ∧ Held net cmd

instance (P : Platform) (net : Net ι) (cmd : ι × Request) : Decidable (Smooth P net cmd) :=
  inferInstanceAs (Decidable (_ ∧ _))

/-- A choice of requests that has every registration and whatever touches a queue that one of
its Recv requests drains. These are the watched queues. -/
structure Closed (keep : ι × Request → Bool) (watched : UserId → Bool) : Prop where
  register : ∀ cmd, cmd.2.isRegister = true → keep cmd = true
  recv : ∀ cmd id, keep cmd = true → cmd.2 = .recv id → watched id = true
  touches : ∀ cmd k, cmd.2.queue? = some k → watched k = true → keep cmd = true

/-- States that the chosen requests cannot tell apart. -/
structure Alike (watched : UserId → Bool) (net net' : Net ι) : Prop where
  sees : SeesSame watched net.server.db net'.server.db
  sizes : SameSizes net net'
  short : ShortMsgs net.server.db
  short' : ShortMsgs net'.server.db

omit [DecidableEq ι] in
theorem Alike.refl {watched : UserId → Bool} (h : ShortMsgs net.server.db) :
    Alike watched net net :=
  ⟨SeesSame.refl watched _, ⟨rfl, fun _ => rfl, fun _ => rfl⟩, h, h⟩

/-- The messages stay short. -/
theorem shortMsgs_after (hfits : Fits P net cmd) (h : ShortMsgs net.server.db) :
    ShortMsgs (after P net cmd).server.db := by
  intro U m hm
  rcases mem_queueOf_reply P net.server.db hm with hm | hm
  · exact h U m hm
  · exact hfits.msg_short hm

omit [DecidableEq ι] in
/-- What fits in one of two states that look alike fits in the other. -/
theorem Alike.smooth {watched : UserId → Bool} (h : Alike watched net net')
    (hstable : P.iter.Stable) (hrecv : ∀ id, cmd.2 = .recv id → watched id = true)
    (hp : Smooth P net cmd) : Smooth P net' cmd := by
  obtain ⟨hfits, hheld⟩ := hp
  obtain ⟨hbytes, hret⟩ := h.sees.reply hstable hrecv
  refine ⟨⟨hfits.sendable, ?_, ?_, ?_, ?_⟩, ?_⟩
  · rw [h.sizes.tx]
    exact hfits.request_le
  · rw [hbytes]
    exact hfits.response_lt
  · rw [hret, h.sizes.server]
    exact hfits.response_le_tx
  · rw [hret, h.sizes.rx]
    exact hfits.response_le_rx
  · obtain ⟨i, r⟩ := cmd
    cases r with
    | recv id => exact (h.sees.userExists id).trans hheld
    | _ => trivial

/-- A smooth step brings the client the answer. -/
theorem step_of_smooth (h : ShortMsgs net.server.db) (hp : Smooth P net cmd) :
    net.step P cmd = .ok (after P net cmd, answer P net.server.db cmd.2) := by
  obtain ⟨net', outcome, hstep⟩ := step_isOk hp.1 h fun id hid hex => by
    rw [hp.2.exists id hid] at hex
    cases hex
  obtain ⟨rfl, rfl | ⟨id, hid, hex⟩⟩ := step_outcome hp.1 h hstep
  · exact hstep
  · rw [hp.2.exists id hid] at hex
    cases hex

/-- **One step.** A chosen request is answered alike in states that look alike, and they look
alike after it; any other request leaves what the chosen ones can see. -/
theorem unwinds (hstable : P.iter.Stable) {keep : ι × Request → Bool} {watched : UserId → Bool}
    (hclosed : Closed keep watched) :
    Unwinds (step P) (Smooth P) keep (Alike (ι := ι) watched) where
  dropped := by
    intro net net₂ cmd net' outcome h hp hstep hkeep
    rw [step_of_smooth h.short hp, Except.ok.injEq, Prod.mk.injEq] at hstep
    obtain ⟨rfl, -⟩ := hstep
    have hr : cmd.2.isRegister = false := by
      by_contra hr
      rw [hclosed.register cmd (by simpa using hr)] at hkeep
      cases hkeep
    have hq : ∀ k, cmd.2.queue? = some k → watched k = false := by
      intro k hk
      by_contra hw
      rw [hclosed.touches cmd k hk (by simpa using hw)] at hkeep
      cases hkeep
    exact ⟨h.sees.of_untouched hr hq, (sameSizes_after hp.1).symm.trans h.sizes,
      shortMsgs_after hp.1 h.short, h.short'⟩
  kept := by
    intro net net₂ cmd net' outcome h hp hstep hkeep
    rw [step_of_smooth h.short hp, Except.ok.injEq, Prod.mk.injEq] at hstep
    obtain ⟨rfl, rfl⟩ := hstep
    have hrecv : ∀ id, cmd.2 = .recv id → watched id = true := fun id hid =>
      hclosed.recv cmd id hkeep hid
    have hp₂ : Smooth P net₂ cmd := h.smooth hstable hrecv hp
    refine ⟨after P net₂ cmd, ?_, h.sees.reply_db cmd.2, ?_, shortMsgs_after hp.1 h.short,
      shortMsgs_after hp₂.1 h.short'⟩
    · rw [step_of_smooth h.short' hp₂, h.sees.answer hstable hrecv]
    · exact (sameSizes_after hp.1).symm.trans (h.sizes.trans (sameSizes_after hp₂.1))

variable {cmds : List (ι × Request)} {log : List (Event ι)}

theorem shortMsgs_fresh : ShortMsgs fresh.server.db := by
  intro U m hm
  rw [show fresh.server.db = .empty from rfl, queueOf_empty] at hm
  cases hm

/-- **Nobody notices the others.** The requests of a closed choice, made alone, are answered as
they are in the whole run, and find the same users and the same watched queues at the end. -/
theorem slice_of_run (hstable : P.iter.Stable) {keep : ι × Request → Bool}
    {watched : UserId → Bool} (hclosed : Closed keep watched) (hshort : ShortMsgs net.server.db)
    (hp : Along (step P) (Smooth P) net cmds) (hrun : run (step P) net cmds = .ok (net', log)) :
    ∃ alone log', run (step P) net (cmds.filter keep) = .ok (alone, log') ∧
      SeesSame watched net'.server.db alone.server.db ∧
      log'.map Entry.exchange = (log.filter (keep ·.input)).map Entry.exchange := by
  obtain ⟨alone, log', hrun', halike, hlog⟩ :=
    (unwinds hstable hclosed).run_filter (Alike.refl hshort) hp hrun
  exact ⟨alone, log', hrun', halike.sees, hlog⟩

/-! ## Runs in another order -/

/-- A registration, or a request that touches the queue `q`; `none` stands for the requests
that touch no queue. -/
def concerns (q : Option UserId) (cmd : ι × Request) : Bool :=
  cmd.2.isRegister || cmd.2.queue? == q

omit [DecidableEq ι] in
theorem closed_concerns (q : Option UserId) :
    Closed (ι := ι) (concerns q) (fun id => q == some id) where
  register := by
    intro cmd hcmd
    rw [concerns, hcmd, Bool.true_or]
  recv := by
    rintro ⟨i, r⟩ id hkeep rfl
    have hq : some id = q := by simpa [concerns, Request.isRegister, Request.queue?] using hkeep
    simp [← hq]
  touches := by
    intro cmd k hk hw
    have hq : q = some k := by simpa using hw
    simp [concerns, hk, hq]

/-- A user's mail, with and without that of another. -/
theorem slice_of_run_two_mailboxes :
    let cmds : List (Unit × Request) := [((), .register [65]), ((), .register [66]),
      ((), .send 0 1 [104]), ((), .send 1 0 [105]), ((), .recv 0), ((), .recv 1)]
    ∃ net' log, run (step .littleEndian) fresh cmds = .ok (net', log) ∧
      ∃ alone log', run (step .littleEndian) fresh (cmds.filter (concerns (some 1)))
          = .ok (alone, log') ∧
        SeesSame (some 1 == some ·) net'.server.db alone.server.db ∧
        log'.map Entry.exchange
          = (log.filter (concerns (some 1) ·.input)).map Entry.exchange := by
  intro cmds
  have hok : (run (step .littleEndian) fresh cmds).map (fun _ => true) = .ok true := by
    decide +kernel
  obtain ⟨⟨net', log⟩, hrun, -⟩ := map_eq_ok.mp hok
  exact ⟨net', log, hrun, slice_of_run Traversal.ascending_stable (closed_concerns (some 1))
    shortMsgs_fresh (by decide +kernel) hrun⟩

/-- **Only the order at each queue matters.** Two runs from one state that make the same
registrations, and between them the same requests in the same order at each queue, lead to the
same database, and every request is answered in the one as in the other. -/
theorem exchanges_of_same_order (hstable : P.iter.Stable) (hshort : ShortMsgs net.server.db)
    {cmds₁ cmds₂ : List (ι × Request)} {net₁ net₂ : Net ι} {log₁ log₂ : List (Event ι)}
    (hp₁ : Along (step P) (Smooth P) net cmds₁) (hp₂ : Along (step P) (Smooth P) net cmds₂)
    (hrun₁ : run (step P) net cmds₁ = .ok (net₁, log₁))
    (hrun₂ : run (step P) net cmds₂ = .ok (net₂, log₂))
    (hsame : ∀ q, cmds₁.filter (concerns q) = cmds₂.filter (concerns q)) :
    net₁.server.db = net₂.server.db ∧
      ∀ q, (log₁.filter (concerns q ·.input)).map Entry.exchange
        = (log₂.filter (concerns q ·.input)).map Entry.exchange := by
  have hboth (q : Option UserId) := (unwinds hstable (closed_concerns q)).exchanges_eq
    (Alike.refl hshort) hp₁ hp₂ hrun₁ hrun₂ (hsame q)
  refine ⟨Database.ext_of_parts ?_ (fun id => ?_) fun id => ?_, fun q => (hboth q).2⟩
  · obtain ⟨t, h₁, h₂⟩ := (hboth none).1
    exact h₁.sees.nextId.symm.trans h₂.sees.nextId
  · obtain ⟨t, h₁, h₂⟩ := (hboth none).1
    exact (h₁.sees.nameOf id).symm.trans (h₂.sees.nameOf id)
  · obtain ⟨t, h₁, h₂⟩ := (hboth (some id)).1
    have hwatched : (some id == some id) = true := beq_self_eq_true _
    exact (h₁.sees.queueOf id hwatched).symm.trans (h₂.sees.queueOf id hwatched)

/-- Each of two users writes to the other and polls, one after the other or together. -/
theorem exchanges_of_same_order_two_users :
    let start : List (Unit × Request) := [((), .register [65]), ((), .register [66])]
    let talk : UserId → UserId → List (Unit × Request) := fun i j =>
      [((), .send i j [104]), ((), .recv j)]
    ∃ net₁ log₁ net₂ log₂,
      run (step .littleEndian) fresh (start ++ (talk 0 1 ++ talk 1 0)) = .ok (net₁, log₁) ∧
      run (step .littleEndian) fresh (start ++ (talk 1 0 ++ talk 0 1)) = .ok (net₂, log₂) ∧
      net₁.server.db = net₂.server.db ∧
      ∀ q, (log₁.filter (concerns q ·.input)).map Entry.exchange
        = (log₂.filter (concerns q ·.input)).map Entry.exchange := by
  intro start talk
  have hok₁ : (run (step .littleEndian) fresh (start ++ (talk 0 1 ++ talk 1 0))).map (fun _ => true)
      = .ok true := by decide +kernel
  have hok₂ : (run (step .littleEndian) fresh (start ++ (talk 1 0 ++ talk 0 1))).map (fun _ => true)
      = .ok true := by decide +kernel
  obtain ⟨⟨net₁, log₁⟩, hrun₁, -⟩ := map_eq_ok.mp hok₁
  obtain ⟨⟨net₂, log₂⟩, hrun₂, -⟩ := map_eq_ok.mp hok₂
  have hsame : ∀ q, (start ++ (talk 0 1 ++ talk 1 0)).filter (concerns q)
      = (start ++ (talk 1 0 ++ talk 0 1)).filter (concerns q) := by
    intro q
    by_cases h0 : some 0 = q
    · subst h0
      decide
    · by_cases h1 : some 1 = q
      · subst h1
        decide
      · simp [start, talk, concerns, Request.isRegister, Request.queue?, h0, h1]
  exact ⟨net₁, log₁, net₂, log₂, hrun₁, hrun₂, exchanges_of_same_order
    Traversal.ascending_stable shortMsgs_fresh (by decide +kernel) (by decide +kernel) hrun₁ hrun₂
    hsame⟩

end Net

end ChatApp
