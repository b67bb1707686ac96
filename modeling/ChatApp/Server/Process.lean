import ChatApp.Lib.Run
import ChatApp.Server.ServerApp
import Mathlib.Data.Fintype.BigOperators
import Mathlib.Order.Interval.Finset.Defs

set_option autoImplicit false

/-! # The server process (`server/server_app.cpp`, `tcp_lib/server_socket.h`)

`ServerApp::run` accepts one connection after another and starts a thread for each, which has
the descriptor and nothing else. The thread receives, handles and sends, and the destructor of
its socket closes the descriptor. Descriptors are given again once they are closed, so whom a
thread talks to depends on what the others have closed.

The steps are the calls on descriptors and the accesses to the database, in any order of the
threads. The database has no mutex: each read and write of `next_id_` and each call on
`user_map_` is a step of its own, between which other threads come in. `Process.Inv` says what
holds after every step: the threads and the open connections belong to each other, one to one.
-/

namespace ChatApp

open Lib Lib.Wire Lib.Wire.Message

/-- What a descriptor refers to. Connections are numbered in the order they are accepted. -/
inductive File
  | standard
  | listener
  | connection (n : ℕ)
  deriving Repr, DecidableEq

/-- What a call of `accept` comes back with. -/
inductive Accept
  | descriptor (fd : Int)
  | wouldBlock
  | error
  deriving Repr, DecidableEq

/-- `ServerSocket::getConnection`: the result, and whether there is a connection. -/
def getConnection : Accept → Int × Bool
  | .descriptor fd => (fd, true)
  | .wouldBlock => (-1, false)
  | .error => (-1, false)

/-- How far a thread in `handleRequest` is. -/
inductive Stage
  | receiving
  /-- In `registerUser`, before `next_id_` is read for the subscript. -/
  | registering (username : Bytes)
  /-- Before the user is stored. -/
  | storing (username : Bytes) (id : UserId)
  /-- Before `next_id_` is read for the increment. -/
  | counting
  /-- Before `next_id_` is written; `id` is what `registerUser` returns. -/
  | assigning (id : UserId)
  /-- Before `userExists`. -/
  | lookingUp (requestorId : UserId)
  /-- In the loop over the users, `passed` of which are behind the iterator. -/
  | walking (requestorId : UserId) (passed : ℕ) (onlineUsers : List Mcc.OnlineUser)
  | sending (sent : Except Fault Bytes)
  | closing

/-- The descriptor of a thread, what its calls of `recv` have come back with, and its stage. -/
structure Handler where
  socketDescriptor : Int
  recvs : List Recv
  stage : Stage

/-- The descriptors of the process, its threads, numbered as the connections they were started
for, how many were started, and the database. -/
structure Process where
  table : Int → Option File
  handlers : ℕ → Option Handler
  started : ℕ
  db : Database

/-- A call of the thread in `run`, or of a thread in `handleRequest`, or an access of the latter to
the database. -/
inductive ProcessEvent
  | accept (r : Accept)
  | recv (n : ℕ) (r : Recv)
  | access (n : ℕ)
  | send (n : ℕ)
  | close (n : ℕ)
  deriving Repr, DecidableEq

/-- What the call was on, the request that is handled with it (the calls of `recv` that brought
it, and the bytes to send for it), and the bytes handed to `sendB`. -/
structure Use where
  file : Option File := none
  handled : Option (List Recv × Except Fault Bytes) := none
  sent : Option (Except Fault Bytes) := none

namespace Stage

open ServerApp

/-- A response is written if it fits, and as many bytes as it has are sent. -/
def respond (respPacket : Mcc.Packet) : Stage :=
  .sending (readBytes (serializeToArray respPacket (List.replicate bufferSize 0) bufferSize).1
    (byteSizeLong respPacket))

def usersPacket (respUsers : Mcc.RespUsers) : Mcc.Packet where
  hdr := some { packetType := some .respUsers }
  respUsers := some respUsers

/-- The dispatch on the packet type, up to the first access to the database. A request without
its submessage or the field in it, and one of another type, has none. -/
def dispatch (packet : Mcc.Packet) : Stage :=
  match ((packet.hdr.getD {}).packetType).getD .requestRegister with
  | .requestRegister =>
      match packet.reqReg.bind (·.username) with
      | some username => .registering username
      | none => .sending (.ok [])
  | .requestUsers =>
      match packet.reqUsers.bind (·.requestorId) with
      | some requestorId => .lookingUp requestorId
      | none => .sending (.ok [])
  | _ => .sending (.ok [])

/-- The stage of a thread whose calls of `recv` have come back with these. -/
def arrived (recvs : List Recv) : Stage :=
  match receiveLoop (List.replicate bufferSize 0) bufferSize recvs with
  | none => .receiving
  | some rxBuffer => dispatch (parseFromArray rxBuffer).1

/-- One access to the database. The iterator reads the entries that the map has then. -/
def access (iter : Traversal UserId UserMetadata) (db : Database) :
    Stage → Option (Database × Stage)
  | .registering username => some (db, .storing username db.nextId)
  | .storing username id =>
      some ({ db with userMap := db.userMap.insert id ⟨username, []⟩ }, .counting)
  | .counting => some (db, .assigning db.nextId)
  | .assigning id => some ({ db with nextId := id + 1 }, respond (registerResponse id))
  | .lookingUp requestorId =>
      if !db.userExists requestorId then some (db, respond (usersPacket { respValue := some 1 }))
      else some (db, .walking requestorId 0 [])
  | .walking requestorId passed onlineUsers =>
      match (iter.order db.userMap)[passed]? with
      | none =>
          some (db, respond (usersPacket { respValue := some 0, onlineUsers := onlineUsers }))
      | some it =>
          if it.1 = requestorId then some (db, .walking requestorId (passed + 1) onlineUsers)
          else some (db, .walking requestorId (passed + 1) (onlineUsers ++ [onlineUser it]))
  | _ => none

/-- The bytes to send, when the request has been handled. -/
def answer : Stage → Option (Except Fault Bytes)
  | .sending sent => some sent
  | _ => none

theorem eq_sending_of_answer {stage : Stage} {sent : Except Fault Bytes}
    (h : stage.answer = some sent) : stage = .sending sent := by
  cases stage with
  | sending sent' => rw [Option.some.inj h]
  | _ => cases h

end Stage

namespace Process

/-- `accept` gives a descriptor that is not in use. -/
def Free (limit : Int) (p : Process) (fd : Int) : Prop :=
  0 ≤ fd ∧ fd < limit ∧ p.table fd = none

instance (limit : Int) (p : Process) (fd : Int) : Decidable (p.Free limit fd) :=
  inferInstanceAs (Decidable (_ ∧ _ ∧ _))

/-- A round of the loop in `run`. -/
def accept (p : Process) (r : Accept) : Process × Use :=
  let (socketDescriptor, connected) := getConnection r
  if connected then
    ({ p with table := Function.update p.table socketDescriptor (some (.connection p.started))
              handlers := Function.update p.handlers p.started
                (some ⟨socketDescriptor, [], .receiving⟩)
              started := p.started + 1 },
      { file := some (.connection p.started) })
  else (p, {})

/-- The thread goes on. -/
def goOn (p : Process) (n : ℕ) (t : Handler) : Process :=
  { p with handlers := Function.update p.handlers n (some t) }

/-- The destructor of the socket, and the end of the thread. -/
def shut (p : Process) (n : ℕ) (t : Handler) : Process :=
  { p with table := Function.update p.table t.socketDescriptor none
           handlers := Function.update p.handlers n none }

/-- One call, or one access. `limit` is the number of descriptors that a process can have. -/
def step (iter : Traversal UserId UserMetadata) (limit : Int) (p : Process) :
    ProcessEvent → Except Unit (Process × Use)
  | .accept (.descriptor fd) =>
      if p.Free limit fd then .ok (p.accept (.descriptor fd)) else .error ()
  | .accept r => .ok (p.accept r)
  | .recv n r =>
      match p.handlers n with
      | some ⟨fd, recvs, .receiving⟩ =>
          let stage := Stage.arrived (recvs ++ [r])
          .ok (p.goOn n ⟨fd, recvs ++ [r], stage⟩,
            { file := p.table fd, handled := stage.answer.map fun sent => (recvs ++ [r], sent) })
      | _ => .error ()
  | .access n =>
      match p.handlers n with
      | some ⟨fd, recvs, stage⟩ =>
          match stage.access iter p.db with
          | some (db, stage) =>
              .ok ({ p.goOn n ⟨fd, recvs, stage⟩ with db := db },
                { handled := stage.answer.map fun sent => (recvs, sent) })
          | none => .error ()
      | none => .error ()
  | .send n =>
      match p.handlers n with
      | some ⟨fd, recvs, .sending sent⟩ =>
          .ok (p.goOn n ⟨fd, recvs, .closing⟩, { file := p.table fd, sent := some sent })
      | _ => .error ()
  | .close n =>
      match p.handlers n with
      | some ⟨fd, recvs, .closing⟩ =>
          .ok (p.shut n ⟨fd, recvs, .closing⟩, { file := p.table fd })
      | _ => .error ()

/-- After the constructor of the listening socket. -/
def start : Process where
  table fd := if 0 ≤ fd ∧ fd < 3 then some .standard else if fd = 3 then some .listener else none
  handlers := fun _ => none
  started := 0
  db := .empty

variable {iter : Traversal UserId UserMetadata} {limit : Int} {p p' : Process} {use : Use}

/-! ## What a call can do -/

theorem step_accept {r : Accept} (h : p.step iter limit (.accept r) = .ok (p', use)) :
    (∃ fd, r = .descriptor fd ∧ p.Free limit fd ∧ p.accept (.descriptor fd) = (p', use)) ∨
      (∀ fd, r ≠ .descriptor fd) ∧ p' = p ∧ use = {} := by
  cases r with
  | descriptor fd =>
      rw [step] at h
      split_ifs at h with hfree
      exact .inl ⟨fd, rfl, hfree, Except.ok.inj h⟩
  | wouldBlock =>
      obtain ⟨rfl, rfl⟩ := Prod.mk.inj (Except.ok.inj h)
      exact .inr ⟨nofun, rfl, rfl⟩
  | error =>
      obtain ⟨rfl, rfl⟩ := Prod.mk.inj (Except.ok.inj h)
      exact .inr ⟨nofun, rfl, rfl⟩

theorem step_recv {n : ℕ} {r : Recv} (h : p.step iter limit (.recv n r) = .ok (p', use)) :
    ∃ fd recvs, p.handlers n = some ⟨fd, recvs, .receiving⟩ ∧
      p' = p.goOn n ⟨fd, recvs ++ [r], Stage.arrived (recvs ++ [r])⟩ ∧
      use = { file := p.table fd
              handled := (Stage.arrived (recvs ++ [r])).answer.map
                fun sent => (recvs ++ [r], sent) } := by
  simp only [step] at h
  split at h
  · next fd recvs ht =>
      obtain ⟨rfl, rfl⟩ := Prod.mk.inj (Except.ok.inj h)
      exact ⟨fd, recvs, ht, rfl, rfl⟩
  · cases h

theorem step_access {n : ℕ} (h : p.step iter limit (.access n) = .ok (p', use)) :
    ∃ fd recvs stage db stage', p.handlers n = some ⟨fd, recvs, stage⟩ ∧
      stage.access iter p.db = some (db, stage') ∧
      p' = { p.goOn n ⟨fd, recvs, stage'⟩ with db := db } ∧
      use = { handled := stage'.answer.map fun sent => (recvs, sent) } := by
  simp only [step] at h
  split at h
  · next fd recvs stage ht =>
      split at h
      · next db stage' haccess =>
          obtain ⟨rfl, rfl⟩ := Prod.mk.inj (Except.ok.inj h)
          exact ⟨fd, recvs, stage, db, stage', ht, haccess, rfl, rfl⟩
      · cases h
  · cases h

theorem step_send {n : ℕ} (h : p.step iter limit (.send n) = .ok (p', use)) :
    ∃ fd recvs sent, p.handlers n = some ⟨fd, recvs, .sending sent⟩ ∧
      p' = p.goOn n ⟨fd, recvs, .closing⟩ ∧
      use = { file := p.table fd, sent := some sent } := by
  simp only [step] at h
  split at h
  · next fd recvs sent ht =>
      obtain ⟨rfl, rfl⟩ := Prod.mk.inj (Except.ok.inj h)
      exact ⟨fd, recvs, sent, ht, rfl, rfl⟩
  · cases h

theorem step_close {n : ℕ} (h : p.step iter limit (.close n) = .ok (p', use)) :
    ∃ fd recvs, p.handlers n = some ⟨fd, recvs, .closing⟩ ∧
      p' = p.shut n ⟨fd, recvs, .closing⟩ ∧ use = { file := p.table fd } := by
  simp only [step] at h
  split at h
  · next fd recvs ht =>
      obtain ⟨rfl, rfl⟩ := Prod.mk.inj (Except.ok.inj h)
      exact ⟨fd, recvs, ht, rfl, rfl⟩
  · cases h

/-! ## The descriptors and the threads after a call -/

section After

variable {n m : ℕ} {t u : Handler} {fd fd' : Int}

@[simp] theorem goOn_table : (p.goOn n t).table = p.table := rfl

@[simp] theorem goOn_started : (p.goOn n t).started = p.started := rfl

@[simp] theorem goOn_handlers_self : (p.goOn n t).handlers n = some t :=
  Function.update_self n _ p.handlers

theorem goOn_handlers_of_ne (h : m ≠ n) : (p.goOn n t).handlers m = p.handlers m :=
  Function.update_of_ne h _ p.handlers

/-- The threads after one has gone on: that one, and the others as they were. -/
theorem handlers_of_goOn (h : (p.goOn n t).handlers m = some u) :
    (m = n ∧ u = t) ∨ (m ≠ n ∧ p.handlers m = some u) := by
  by_cases hm : m = n
  · subst hm
    exact .inl ⟨rfl, Option.some.inj (h.symm.trans goOn_handlers_self)⟩
  · exact .inr ⟨hm, (goOn_handlers_of_ne hm).symm.trans h⟩

@[simp] theorem accept_started : (p.accept (.descriptor fd)).1.started = p.started + 1 := rfl

@[simp] theorem accept_table_self :
    (p.accept (.descriptor fd)).1.table fd = some (.connection p.started) :=
  Function.update_self fd _ p.table

theorem accept_table_of_ne (h : fd' ≠ fd) :
    (p.accept (.descriptor fd)).1.table fd' = p.table fd' :=
  Function.update_of_ne h _ p.table

@[simp] theorem accept_handlers_self :
    (p.accept (.descriptor fd)).1.handlers p.started = some ⟨fd, [], .receiving⟩ :=
  Function.update_self p.started _ p.handlers

theorem accept_handlers_of_ne (h : m ≠ p.started) :
    (p.accept (.descriptor fd)).1.handlers m = p.handlers m :=
  Function.update_of_ne h _ p.handlers

/-- The threads after a connection: a new one, and the others as they were. -/
theorem handlers_of_accept (h : (p.accept (.descriptor fd)).1.handlers m = some u) :
    (m = p.started ∧ u = ⟨fd, [], .receiving⟩) ∨ (m ≠ p.started ∧ p.handlers m = some u) := by
  by_cases hm : m = p.started
  · subst hm
    exact .inl ⟨rfl, Option.some.inj (h.symm.trans accept_handlers_self)⟩
  · exact .inr ⟨hm, (accept_handlers_of_ne hm).symm.trans h⟩

@[simp] theorem shut_started : (p.shut n t).started = p.started := rfl

@[simp] theorem shut_table_self : (p.shut n t).table t.socketDescriptor = none :=
  Function.update_self t.socketDescriptor _ p.table

theorem shut_table_of_ne (h : fd ≠ t.socketDescriptor) : (p.shut n t).table fd = p.table fd :=
  Function.update_of_ne h _ p.table

@[simp] theorem shut_handlers_self : (p.shut n t).handlers n = none :=
  Function.update_self n _ p.handlers

theorem shut_handlers_of_ne (h : m ≠ n) : (p.shut n t).handlers m = p.handlers m :=
  Function.update_of_ne h _ p.handlers

/-- The threads after one has ended. -/
theorem handlers_of_shut (h : (p.shut n t).handlers m = some u) :
    m ≠ n ∧ p.handlers m = some u := by
  have hm : m ≠ n := by
    rintro rfl
    rw [shut_handlers_self] at h
    cases h
  exact ⟨hm, (shut_handlers_of_ne hm).symm.trans h⟩

end After

/-! ## Threads and connections -/

/-- The threads and the open connections belong to each other: a thread has the descriptor of
its own connection, and a connection that is open has its thread. The first four descriptors
are not connections. -/
structure Inv (limit : Int) (p : Process) : Prop where
  standard : ∀ fd, 0 ≤ fd → fd < 4 → ∃ file, p.table fd = some file ∧ ∀ n, file ≠ .connection n
  own : ∀ n t, p.handlers n = some t → p.table t.socketDescriptor = some (.connection n)
  range : ∀ n t, p.handlers n = some t → 0 ≤ t.socketDescriptor ∧ t.socketDescriptor < limit
  owned : ∀ fd n, p.table fd = some (.connection n) →
    ∃ t, p.handlers n = some t ∧ t.socketDescriptor = fd
  fresh : ∀ n, p.started ≤ n → p.handlers n = none

theorem start_table (fd : Int) : Process.start.table fd
    = if 0 ≤ fd ∧ fd < 3 then some .standard else if fd = 3 then some .listener else none := rfl

theorem Inv.start : Inv limit Process.start where
  standard := by
    intro fd hnonneg hlt
    rw [start_table]
    by_cases hthree : fd < 3
    · exact ⟨.standard, if_pos ⟨hnonneg, hthree⟩, nofun⟩
    · rw [if_neg fun h => hthree h.2, if_pos (by omega)]
      exact ⟨.listener, rfl, nofun⟩
  own := fun n t ht => by cases ht
  range := fun n t ht => by cases ht
  owned := by
    intro fd n hfd
    rw [start_table] at hfd
    split_ifs at hfd <;> cases hfd
  fresh := fun _ _ => rfl

/-- A thread has been started. -/
theorem Inv.lt_started (h : Inv limit p) {n : ℕ} {t : Handler} (ht : p.handlers n = some t) :
    n < p.started := by
  by_contra hnot
  rw [h.fresh n (by omega)] at ht
  cases ht

/-- Two threads never have one descriptor. -/
theorem Inv.ne_of_ne (h : Inv limit p) {n m : ℕ} {t u : Handler} (ht : p.handlers n = some t)
    (hu : p.handlers m = some u) (hne : n ≠ m) : t.socketDescriptor ≠ u.socketDescriptor := by
  intro heq
  have hn := h.own n t ht
  rw [heq, h.own m u hu, Option.some.injEq, File.connection.injEq] at hn
  exact hne hn.symm

/-- A thread that goes on keeps its descriptor. -/
theorem Inv.goOn (h : Inv limit p) {n : ℕ} {t t' : Handler} (ht : p.handlers n = some t)
    (hfd : t.socketDescriptor = t'.socketDescriptor) : Inv limit (p.goOn n t') := by
  have hcases (m : ℕ) (u : Handler) (hu : (p.goOn n t').handlers m = some u) :
      ∃ u', p.handlers m = some u' ∧ u'.socketDescriptor = u.socketDescriptor := by
    rcases handlers_of_goOn hu with ⟨rfl, rfl⟩ | ⟨-, hold⟩
    · exact ⟨t, ht, hfd⟩
    · exact ⟨u, hold, rfl⟩
  refine ⟨h.standard, fun m u hu => ?_, fun m u hu => ?_, fun fd m hfd' => ?_, fun m hm => ?_⟩
  · obtain ⟨u', hu', heq⟩ := hcases m u hu
    rw [← heq]
    exact h.own m u' hu'
  · obtain ⟨u', hu', heq⟩ := hcases m u hu
    rw [← heq]
    exact h.range m u' hu'
  · obtain ⟨u, hu, hfdu⟩ := h.owned fd m hfd'
    by_cases hm : m = n
    · subst hm
      obtain rfl := Option.some.inj (ht.symm.trans hu)
      exact ⟨_, goOn_handlers_self, hfd.symm.trans hfdu⟩
    · exact ⟨u, (goOn_handlers_of_ne hm).trans hu, hfdu⟩
  · have hlt : n < p.started := h.lt_started ht
    rw [goOn_started] at hm
    rw [goOn_handlers_of_ne (by omega)]
    exact h.fresh m hm

theorem Inv.accept (h : Inv limit p) {fd : Int} (hfree : p.Free limit fd) :
    Inv limit (p.accept (.descriptor fd)).1 := by
  have hne {fd' : Int} {file : File} (hfile : p.table fd' = some file) : fd' ≠ fd := by
    rintro rfl
    rw [hfree.2.2] at hfile
    cases hfile
  refine ⟨fun fd' hnonneg hlt => ?_, fun n t ht => ?_, fun n t ht => ?_, fun fd' n hfd' => ?_,
    fun n hn => ?_⟩
  · obtain ⟨file, hfile, hnot⟩ := h.standard fd' hnonneg hlt
    exact ⟨file, (accept_table_of_ne (hne hfile)).trans hfile, hnot⟩
  · rcases handlers_of_accept ht with ⟨rfl, rfl⟩ | ⟨-, hold⟩
    · exact accept_table_self
    · have hown := h.own n t hold
      rw [accept_table_of_ne (hne hown), hown]
  · rcases handlers_of_accept ht with ⟨-, rfl⟩ | ⟨-, hold⟩
    · exact ⟨hfree.1, hfree.2.1⟩
    · exact h.range n t hold
  · by_cases heq : fd' = fd
    · subst heq
      rw [accept_table_self, Option.some.injEq, File.connection.injEq] at hfd'
      subst hfd'
      exact ⟨_, accept_handlers_self, rfl⟩
    · rw [accept_table_of_ne heq] at hfd'
      obtain ⟨t, ht, hfd⟩ := h.owned fd' n hfd'
      exact ⟨t, (accept_handlers_of_ne (h.lt_started ht).ne).trans ht, hfd⟩
  · rw [accept_started] at hn
    rw [accept_handlers_of_ne (by omega)]
    exact h.fresh n (by omega)

/-- **The destructor closes the thread's own connection**, and no other. -/
theorem Inv.shut (h : Inv limit p) {n : ℕ} {t : Handler} (ht : p.handlers n = some t) :
    Inv limit (p.shut n t) := by
  refine ⟨fun fd hnonneg hlt => ?_, fun m u hu => ?_,
    fun m u hu => h.range m u (handlers_of_shut hu).2, fun fd m hfd => ?_, fun m hm => ?_⟩
  · obtain ⟨file, hfile, hnot⟩ := h.standard fd hnonneg hlt
    have hne : fd ≠ t.socketDescriptor := by
      rintro rfl
      rw [h.own n t ht] at hfile
      exact hnot n (Option.some.inj hfile).symm
    exact ⟨file, (shut_table_of_ne hne).trans hfile, hnot⟩
  · obtain ⟨hm, hu'⟩ := handlers_of_shut hu
    rw [shut_table_of_ne (h.ne_of_ne hu' ht hm)]
    exact h.own m u hu'
  · have hne : fd ≠ t.socketDescriptor := by
      rintro rfl
      rw [shut_table_self] at hfd
      cases hfd
    rw [shut_table_of_ne hne] at hfd
    obtain ⟨u, hu, hfdu⟩ := h.owned fd m hfd
    have hm : m ≠ n := by
      rintro rfl
      obtain rfl := Option.some.inj (ht.symm.trans hu)
      exact hne hfdu.symm
    exact ⟨u, (shut_handlers_of_ne hm).trans hu, hfdu⟩
  · by_cases hmn : m = n
    · rw [hmn, shut_handlers_self]
    · rw [shut_handlers_of_ne hmn]
      exact h.fresh m hm

/-- **The step lemma.** -/
theorem Inv.step (h : Inv limit p) {event : ProcessEvent}
    (hstep : p.step iter limit event = .ok (p', use)) : Inv limit p' := by
  cases event with
  | accept r =>
      rcases step_accept hstep with ⟨fd, rfl, hfree, haccept⟩ | ⟨-, rfl, -⟩
      · have hnext := h.accept hfree
        rwa [haccept] at hnext
      · exact h
  | recv n r =>
      obtain ⟨fd, recvs, ht, rfl, -⟩ := step_recv hstep
      exact h.goOn ht rfl
  | access n =>
      obtain ⟨fd, recvs, stage, db, stage', ht, -, rfl, -⟩ := step_access hstep
      have hnext : Inv limit (p.goOn n ⟨fd, recvs, stage'⟩) := h.goOn ht rfl
      obtain ⟨hstandard, hown, hrange, howned, hfresh⟩ := hnext
      exact ⟨hstandard, hown, hrange, howned, hfresh⟩
  | send n =>
      obtain ⟨fd, recvs, sent, ht, rfl, -⟩ := step_send hstep
      exact h.goOn ht rfl
  | close n =>
      obtain ⟨fd, recvs, ht, rfl, -⟩ := step_close hstep
      exact h.shut ht

/-! ## How many threads there can be -/

/-- The threads that have started and not ended. -/
def live (p : Process) : Finset ℕ := (Finset.range p.started).filter fun n => (p.handlers n).isSome

theorem Inv.mem_live_iff (h : Inv limit p) (n : ℕ) :
    n ∈ p.live ↔ ∃ t, p.handlers n = some t := by
  rw [live, Finset.mem_filter, Finset.mem_range, Option.isSome_iff_exists]
  refine ⟨fun hn => hn.2, fun hn => ⟨?_, hn⟩⟩
  obtain ⟨t, ht⟩ := hn
  exact h.lt_started ht

/-- **Every thread takes up a descriptor** behind the first four. -/
theorem Inv.live_card_le (h : Inv limit p) : p.live.card ≤ (limit - 4).toNat := by
  have hmaps : ∀ n ∈ p.live,
      ((p.handlers n).elim 0 Handler.socketDescriptor) ∈ Finset.Ico 4 limit := by
    intro n hn
    obtain ⟨t, ht⟩ := (h.mem_live_iff n).mp hn
    obtain ⟨hnonneg, hlt⟩ := h.range n t ht
    have hfour : 4 ≤ t.socketDescriptor := by
      by_contra hsmall
      obtain ⟨file, hfile, hnot⟩ := h.standard t.socketDescriptor hnonneg (by omega)
      rw [h.own n t ht] at hfile
      exact hnot n (Option.some.inj hfile).symm
    rw [ht, Finset.mem_Ico]
    exact ⟨hfour, hlt⟩
  have hinj : Set.InjOn (fun n => (p.handlers n).elim 0 Handler.socketDescriptor) p.live := by
    intro n hn m hm heq
    obtain ⟨t, ht⟩ := (h.mem_live_iff n).mp hn
    obtain ⟨u, hu⟩ := (h.mem_live_iff m).mp hm
    by_contra hne
    dsimp only at heq
    rw [ht, hu] at heq
    exact h.ne_of_ne ht hu hne heq
  calc p.live.card ≤ (Finset.Ico 4 limit).card := Finset.card_le_card_of_injOn _ hmaps hinj
    _ = (limit - 4).toNat := Int.card_Ico 4 limit

end Process

end ChatApp
