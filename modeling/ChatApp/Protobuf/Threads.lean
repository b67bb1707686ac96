import ChatApp.Protobuf.ClosedPeer
import ChatApp.Protobuf.History
import ChatApp.Server.Process

set_option autoImplicit false

/-! # Threads and descriptors of the server

Whatever the order of the calls and of the accesses to the database, a thread receives from,
sends to and closes its own connection, though descriptors are given again as soon as they are
closed; and it sends one answer, once, to what its own calls brought (`serves_of_run`).

What the answer says is another matter, as the database has no mutex. When no thread comes between
the accesses of a registration, or registers while another is in its loop over the users, the
threads are one server that takes the connections one after the other (`sequential_of_run`).
Otherwise users get lost, and two get the same id (`not_sequential_two_registrations`).

A thread waits as long as its peer keeps it waiting, and keeps its descriptor. Enough peers that
say nothing, or have gone, and no connection is accepted any more (`starved_of_run`).
-/

namespace ChatApp

open Lib Lib.Wire Lib.Wire.Message

namespace Stage

open ServerApp

/-- What is sent for a packet, whatever is found in the database: a Register response, a Users
response that does not list the asker, or nothing. -/
def Answers (packet : Mcc.Packet) (sent : Except Fault Bytes) : Prop :=
  match dispatch packet with
  | .registering _ => ∃ id, respond (registerResponse id) = .sending sent
  | .lookingUp requestorId => ∃ respUsers : Mcc.RespUsers,
      respond (usersPacket respUsers) = .sending sent ∧
      ∀ user ∈ respUsers.onlineUsers, user.userId ≠ some requestorId
  | _ => sent = .ok []

/-- What the stage of a thread says of its packet. -/
def Handling (packet : Mcc.Packet) : Stage → Prop
  | .receiving => False
  | .registering username | .storing username _ => dispatch packet = .registering username
  | .counting | .assigning _ => ∃ username, dispatch packet = .registering username
  | .lookingUp requestorId => dispatch packet = .lookingUp requestorId
  | .walking requestorId _ onlineUsers => dispatch packet = .lookingUp requestorId ∧
      ∀ user ∈ onlineUsers, user.userId ≠ some requestorId
  | .sending sent => Answers packet sent
  | .closing => True

/-- How often a thread has sent. -/
def sends : Stage → ℕ
  | .closing => 1
  | _ => 0

theorem dispatch_cases (packet : Mcc.Packet) :
    (∃ username, dispatch packet = .registering username) ∨
      (∃ requestorId, dispatch packet = .lookingUp requestorId) ∨
      dispatch packet = .sending (.ok []) := by
  unfold dispatch
  split
  · split
    · exact .inl ⟨_, rfl⟩
    · exact .inr (.inr rfl)
  · split
    · exact .inr (.inl ⟨_, rfl⟩)
    · exact .inr (.inr rfl)
  · exact .inr (.inr rfl)

theorem handling_dispatch (packet : Mcc.Packet) : Handling packet (dispatch packet) := by
  rcases dispatch_cases packet with ⟨username, h⟩ | ⟨requestorId, h⟩ | h
  · rw [h]
    exact h
  · rw [h]
    exact h
  · rw [h]
    show Answers packet _
    rw [Answers, h]

theorem arrived_eq (recvs : List Recv) :
    arrived recvs = (received recvs).elim .receiving dispatch := by
  rw [arrived, received]
  rcases receiveLoop (List.replicate bufferSize 0) bufferSize recvs with _ | rxBuffer <;> rfl

theorem arrived_cases (recvs : List Recv) :
    arrived recvs = .receiving ∨ (∃ username, arrived recvs = .registering username) ∨
      (∃ requestorId, arrived recvs = .lookingUp requestorId) ∨
      arrived recvs = .sending (.ok []) := by
  rw [arrived_eq]
  rcases received recvs with _ | packet
  · exact .inl rfl
  · exact .inr (dispatch_cases packet)

theorem sends_arrived (recvs : List Recv) : (arrived recvs).sends = 0 := by
  rcases arrived_cases recvs with h | ⟨username, h⟩ | ⟨requestorId, h⟩ | h <;> rw [h] <;> rfl

variable {iter : Traversal UserId UserMetadata} {db db' : Database} {stage stage' : Stage}
  {packet : Mcc.Packet}

/-- **One access**: the handling goes on, and has not come to its end before. -/
theorem Handling.access (h : Handling packet stage)
    (haccess : stage.access iter db = some (db', stage')) : Handling packet stage' := by
  cases stage with
  | registering username =>
      cases haccess
      exact h
  | storing username id =>
      cases haccess
      exact ⟨username, h⟩
  | counting =>
      cases haccess
      exact h
  | assigning id =>
      obtain ⟨username, h⟩ := h
      cases haccess
      show Answers packet _
      rw [Answers, h]
      exact ⟨id, rfl⟩
  | lookingUp requestorId =>
      have h : dispatch packet = .lookingUp requestorId := h
      simp only [Stage.access] at haccess
      split_ifs at haccess
      · cases haccess
        show Answers packet _
        rw [Answers, h]
        exact ⟨_, rfl, List.forall_mem_nil _⟩
      · cases haccess
        exact ⟨h, List.forall_mem_nil _⟩
  | walking requestorId passed onlineUsers =>
      obtain ⟨h, hothers⟩ := h
      simp only [Stage.access] at haccess
      split at haccess
      · cases haccess
        show Answers packet _
        rw [Answers, h]
        exact ⟨_, rfl, hothers⟩
      · next it _ =>
          split_ifs at haccess with hself
          · cases haccess
            exact ⟨h, hothers⟩
          · cases haccess
            refine ⟨h, forall_mem_concat hothers ?_⟩
            exact fun heq => hself (Option.some.inj heq)
  | receiving => cases haccess
  | sending sent => cases haccess
  | closing => cases haccess

theorem answer_of_access (haccess : stage.access iter db = some (db', stage')) :
    stage.answer = none ∧ stage ≠ .receiving ∧ stage.sends = 0 ∧ stage'.sends = 0 := by
  cases stage with
  | registering username => cases haccess; exact ⟨rfl, nofun, rfl, rfl⟩
  | storing username id => cases haccess; exact ⟨rfl, nofun, rfl, rfl⟩
  | counting => cases haccess; exact ⟨rfl, nofun, rfl, rfl⟩
  | assigning id => cases haccess; exact ⟨rfl, nofun, rfl, rfl⟩
  | lookingUp requestorId =>
      simp only [Stage.access] at haccess
      split_ifs at haccess <;> cases haccess <;> exact ⟨rfl, nofun, rfl, rfl⟩
  | walking requestorId passed onlineUsers =>
      simp only [Stage.access] at haccess
      split at haccess
      · cases haccess; exact ⟨rfl, nofun, rfl, rfl⟩
      · split_ifs at haccess <;> cases haccess <;> exact ⟨rfl, nofun, rfl, rfl⟩
  | receiving => cases haccess
  | sending sent => cases haccess
  | closing => cases haccess

end Stage

namespace Process

/-- The thread that makes the call or the access, unless it is the one in `run`. -/
def threadOf : ProcessEvent → Option ℕ
  | .accept _ => none
  | .recv n _ => some n
  | .access n => some n
  | .send n => some n
  | .close n => some n

/-- What a call of `recv` by thread `n` comes back with. -/
def recvOf (n : ℕ) : ProcessEvent → Option Recv
  | .recv m r => if m = n then some r else none
  | _ => none

/-- What the calls of `recv` by thread `n` have come back with. -/
def callsOf (n : ℕ) (log : List (Entry Process ProcessEvent Use)) : List Recv :=
  log.filterMap fun e => recvOf n e.input

/-- The request that a step of thread `n` handles. -/
def handledBy (n : ℕ) (e : Entry Process ProcessEvent Use) :
    Option (List Recv × Except Fault Bytes) :=
  if threadOf e.input = some n then e.output.handled else none

/-- What thread `n` has handled. -/
def handledOf (n : ℕ) (log : List (Entry Process ProcessEvent Use)) :
    List (List Recv × Except Fault Bytes) :=
  log.filterMap (handledBy n)

/-- How often thread `n` has sent. -/
def sendsOf (n : ℕ) (log : List (Entry Process ProcessEvent Use)) : ℕ :=
  log.countP fun e => e.input = .send n

/-- A thread calls on its own connection. It handles once what its calls of `recv` have brought,
sends the answer to that once, and has sent it when it closes the connection. -/
structure Serves (before : List (Entry Process ProcessEvent Use))
    (e : Entry Process ProcessEvent Use) : Prop where
  own : ∀ n, (∃ r, e.input = .recv n r) ∨ e.input = .send n ∨ e.input = .close n →
    e.output.file = some (.connection n)
  handled : ∀ calls sent, e.output.handled = some (calls, sent) →
    ∃ n packet, threadOf e.input = some n ∧ handledOf n before = [] ∧
      calls = callsOf n (before ++ [e]) ∧ ServerApp.received calls = some packet ∧
      Stage.Answers packet sent
  sent : ∀ n, e.input = .send n → sendsOf n before = 0 ∧
    ∃ calls sent, handledOf n before = [(calls, sent)] ∧ e.output.sent = some sent
  closed : ∀ n, e.input = .close n → sendsOf n before = 1

variable {iter : Traversal UserId UserMetadata} {limit : Int} {p p' : Process} {use : Use}
  {log : List (Entry Process ProcessEvent Use)} {e : Entry Process ProcessEvent Use}

/-! ## What a thread remembers -/

/-- What a thread has from its own steps so far. -/
structure Track (log : List (Entry Process ProcessEvent Use)) (n : ℕ) (t : Handler) : Prop where
  recvs : t.recvs = callsOf n log
  handling : t.stage ≠ .receiving →
    ∃ packet, ServerApp.received t.recvs = some packet ∧ t.stage.Handling packet
  handled : t.stage ≠ .closing →
    handledOf n log = (t.stage.answer.map fun sent => (t.recvs, sent)).toList
  sends : sendsOf n log = t.stage.sends

structure Tracked (log : List (Entry Process ProcessEvent Use)) (p : Process) : Prop where
  started : ∀ e ∈ log, ∀ n, threadOf e.input = some n → n < p.started
  threads : ∀ n t, p.handlers n = some t → Track log n t

theorem Tracked.start : Tracked [] Process.start where
  started := List.forall_mem_nil _
  threads := fun n t ht => by cases ht

theorem callsOf_concat (n : ℕ) (log : List (Entry Process ProcessEvent Use))
    (e : Entry Process ProcessEvent Use) :
    callsOf n (log ++ [e]) = callsOf n log ++ (recvOf n e.input).toList := by
  rw [callsOf, List.filterMap_append]
  rcases hrecv : recvOf n e.input with _ | r <;> simp [callsOf, hrecv]

theorem handledOf_concat (n : ℕ) (log : List (Entry Process ProcessEvent Use))
    (e : Entry Process ProcessEvent Use) :
    handledOf n (log ++ [e]) = handledOf n log ++ (handledBy n e).toList := by
  rw [handledOf, List.filterMap_append]
  rcases hhandled : handledBy n e with _ | handled <;> simp [handledOf, hhandled]

theorem handledBy_self (n : ℕ) {e : Entry Process ProcessEvent Use}
    (h : threadOf e.input = some n) : handledBy n e = e.output.handled := if_pos h

theorem sendsOf_concat (n : ℕ) (log : List (Entry Process ProcessEvent Use))
    (e : Entry Process ProcessEvent Use) :
    sendsOf n (log ++ [e]) = sendsOf n log + if e.input = .send n then 1 else 0 := by
  rw [sendsOf, sendsOf, List.countP_append, List.countP_singleton]
  simp only [decide_eq_true_eq]

theorem recvOf_eq_none {n : ℕ} {event : ProcessEvent} (h : threadOf event ≠ some n) :
    recvOf n event = none := by
  cases event with
  | recv m r =>
      refine if_neg ?_
      rintro rfl
      exact h rfl
  | _ => rfl

theorem send_of_threadOf {n : ℕ} {event : ProcessEvent} (h : threadOf event ≠ some n) :
    event ≠ .send n := by
  rintro rfl
  exact h rfl

/-- A step of another thread is none of the thread's. -/
theorem Track.other {n : ℕ} {t : Handler} (h : Track log n t) (hne : threadOf e.input ≠ some n) :
    Track (log ++ [e]) n t where
  recvs := by rw [callsOf_concat, recvOf_eq_none hne, Option.toList_none, List.append_nil, h.recvs]
  handling := h.handling
  handled hstage := by
    rw [handledOf_concat, handledBy, if_neg hne, Option.toList_none, List.append_nil,
      h.handled hstage]
  sends := by rw [sendsOf_concat, if_neg (send_of_threadOf hne), Nat.add_zero, h.sends]

/-- A thread that has not started has made no step. -/
theorem Tracked.fresh (h : Tracked log p) (fd : Int) (hne : threadOf e.input ≠ some p.started) :
    Track (log ++ [e]) p.started ⟨fd, [], .receiving⟩ := by
  have hnot : ∀ e' ∈ log, threadOf e'.input ≠ some p.started := fun e' he' hthread =>
    Nat.lt_irrefl p.started (h.started e' he' p.started hthread)
  refine Track.other ⟨?_, fun hreceiving => absurd rfl hreceiving, fun _ => ?_, ?_⟩ hne
  · exact (List.filterMap_eq_nil_iff.mpr fun e' he' => recvOf_eq_none (hnot e' he')).symm
  · exact List.filterMap_eq_nil_iff.mpr fun e' he' => if_neg (hnot e' he')
  · refine List.countP_eq_zero.mpr fun e' he' => ?_
    simpa using send_of_threadOf (hnot e' he')

/-- The threads after a step: each made it itself, or does not notice. -/
theorem Tracked.next (h : Tracked log p) (hstarted : p.started ≤ p'.started)
    (hlt : ∀ n, threadOf e.input = some n → n < p'.started)
    (hthreads : ∀ n t, p'.handlers n = some t →
      Track (log ++ [e]) n t ∨ (p.handlers n = some t ∧ threadOf e.input ≠ some n)) :
    Tracked (log ++ [e]) p' where
  started := forall_mem_concat
    (fun e' he' n hn => Nat.lt_of_lt_of_le (h.started e' he' n hn) hstarted) hlt
  threads n t ht := (hthreads n t ht).elim id fun hold => (h.threads n t hold.1).other hold.2

/-- A thread that goes on. -/
theorem Tracked.goOn (h : Tracked log p) {n : ℕ} {t : Handler}
    (hthread : threadOf e.input = some n) (hlt : n < p.started) (hstarted : p'.started = p.started)
    (hhandlers : p'.handlers = (p.goOn n t).handlers) (ht : Track (log ++ [e]) n t) :
    Tracked (log ++ [e]) p' := by
  refine h.next (Nat.le_of_eq hstarted.symm) (fun m hm => ?_) fun m u hu => ?_
  · obtain rfl := Option.some.inj (hthread.symm.trans hm)
    exact hstarted ▸ hlt
  · rw [hhandlers] at hu
    rcases handlers_of_goOn hu with ⟨rfl, rfl⟩ | ⟨hm, hold⟩
    · exact .inl ht
    · refine .inr ⟨hold, fun hthread' => hm ?_⟩
      exact Option.some.inj (hthread'.symm.trans hthread)

/-- **The step lemma.** -/
theorem Tracked.step (h : Tracked log p) (hinv : Inv limit p) {event : ProcessEvent}
    (hstep : p.step iter limit event = .ok (p', use)) :
    Tracked (log ++ [⟨p, event, use⟩]) p' := by
  cases event with
  | accept r =>
      have hne (n : ℕ) : threadOf (.accept r) ≠ some n := nofun
      rcases step_accept hstep with ⟨fd, rfl, -, haccept⟩ | ⟨-, rfl, -⟩
      · obtain rfl : (p.accept (.descriptor fd)).1 = p' := congrArg Prod.fst haccept
        refine h.next (Nat.le_succ _) (fun n hn => by cases hn) fun n t ht => ?_
        rcases handlers_of_accept ht with ⟨rfl, rfl⟩ | ⟨-, hold⟩
        · exact .inl (h.fresh fd (hne _))
        · exact .inr ⟨hold, hne n⟩
      · exact h.next (Nat.le_refl _) (fun n hn => by cases hn) fun n t ht => .inr ⟨ht, hne n⟩
  | recv n r =>
      obtain ⟨fd, recvs, ht, rfl, rfl⟩ := step_recv hstep
      have hold := h.threads n _ ht
      have hcalls : recvs = callsOf n log := hold.recvs
      refine h.goOn rfl (hinv.lt_started ht) rfl rfl ⟨?_, fun hreceiving => ?_, fun _ => ?_, ?_⟩
      · rw [callsOf_concat, ← hcalls]
        simp [recvOf]
      · dsimp only at hreceiving ⊢
        rw [Stage.arrived_eq] at hreceiving ⊢
        rcases hr : ServerApp.received (recvs ++ [r]) with _ | packet
        · rw [hr] at hreceiving
          exact absurd rfl hreceiving
        · exact ⟨packet, rfl, Stage.handling_dispatch packet⟩
      · rw [handledOf_concat, hold.handled (by simp), handledBy_self n rfl]
        rfl
      · rw [sendsOf_concat, hold.sends, if_neg (by simp), Stage.sends_arrived]
        rfl
  | access n =>
      obtain ⟨fd, recvs, stage, db, stage', ht, haccess, rfl, rfl⟩ := step_access hstep
      have hold := h.threads n _ ht
      obtain ⟨hanswer, hreceiving, hsends, hsends'⟩ := Stage.answer_of_access haccess
      have hclosing : stage ≠ .closing := by
        rintro rfl
        cases hsends
      refine h.goOn (t := ⟨fd, recvs, stage'⟩) rfl (hinv.lt_started ht) rfl rfl
        ⟨?_, fun _ => ?_, fun _ => ?_, ?_⟩
      · rw [callsOf_concat, ← hold.recvs]
        simp [recvOf]
      · obtain ⟨packet, hr, hhandling⟩ := hold.handling hreceiving
        exact ⟨packet, hr, hhandling.access haccess⟩
      · rw [handledOf_concat, hold.handled hclosing, hanswer, handledBy_self n rfl]
        rfl
      · rw [sendsOf_concat, hold.sends, if_neg (by simp), hsends, hsends']
  | send n =>
      obtain ⟨fd, recvs, sent, ht, rfl, rfl⟩ := step_send hstep
      have hold := h.threads n _ ht
      refine h.goOn rfl (hinv.lt_started ht) rfl rfl
        ⟨?_, fun _ => ?_, fun hclosing => absurd rfl hclosing, ?_⟩
      · rw [callsOf_concat, ← hold.recvs]
        simp [recvOf]
      · obtain ⟨packet, hr, -⟩ := hold.handling (by simp)
        exact ⟨packet, hr, trivial⟩
      · rw [sendsOf_concat, hold.sends, if_pos rfl]
        rfl
  | close n =>
      obtain ⟨fd, recvs, ht, rfl, rfl⟩ := step_close hstep
      refine h.next (Nat.le_refl _) (fun m hm => ?_) fun m u hu => ?_
      · obtain rfl : n = m := Option.some.inj hm
        exact hinv.lt_started ht
      · obtain ⟨hm, hold⟩ := handlers_of_shut hu
        exact .inr ⟨hold, fun hthread => hm (Option.some.inj hthread).symm⟩

/-- The first answer of a thread is one to what its own calls have brought. -/
theorem Track.answered {n : ℕ} {t t' : Handler} (hold : Track log n t)
    (hclosing : t.stage ≠ .closing) (hnone : t.stage.answer = none)
    (hnew : Track (log ++ [e]) n t') {calls : List Recv} {sent : Except Fault Bytes}
    (h : (t'.stage.answer.map fun sent => (t'.recvs, sent)) = some (calls, sent)) :
    ∃ packet, handledOf n log = [] ∧ calls = callsOf n (log ++ [e]) ∧
      ServerApp.received calls = some packet ∧ Stage.Answers packet sent := by
  obtain ⟨sent', hanswer, heq⟩ := Option.map_eq_some_iff.mp h
  obtain ⟨rfl, rfl⟩ := Prod.mk.inj heq
  have hsending : t'.stage = .sending sent' := Stage.eq_sending_of_answer hanswer
  have hempty : handledOf n log = [] := by
    rw [hold.handled hclosing, hnone]
    rfl
  obtain ⟨packet, hr, hhandling⟩ := hnew.handling (by simp [hsending])
  rw [hsending] at hhandling
  exact ⟨packet, hempty, hnew.recvs, hr, hhandling⟩

/-- **What a step does**, from what the threads remember before it and after it. -/
theorem Tracked.serves (h : Tracked log p) (hinv : Inv limit p) {event : ProcessEvent}
    (hstep : p.step iter limit event = .ok (p', use)) : Serves log ⟨p, event, use⟩ := by
  have hnext := h.step hinv hstep
  cases event with
  | accept r =>
      have huse : use.handled = none := by
        rcases step_accept hstep with ⟨fd, -, -, haccept⟩ | ⟨-, -, rfl⟩
        · exact (congrArg (fun out => out.2.handled) haccept).symm
        · rfl
      refine ⟨?_, fun calls sent hhandled => ?_, nofun, nofun⟩
      · rintro n (⟨r, hinput⟩ | hinput | hinput) <;> cases hinput
      · cases huse.symm.trans hhandled
  | recv n r =>
      obtain ⟨fd, recvs, ht, rfl, rfl⟩ := step_recv hstep
      have hold := h.threads n _ ht
      have hnew := hnext.threads n _ goOn_handlers_self
      refine ⟨?_, fun calls sent hhandled => ?_, nofun, nofun⟩
      · rintro m (⟨r', hinput⟩ | hinput | hinput) <;> cases hinput
        exact hinv.own n _ ht
      · obtain ⟨packet, hanswered⟩ := hold.answered (by simp) rfl hnew hhandled
        exact ⟨n, packet, rfl, hanswered⟩
  | access n =>
      obtain ⟨fd, recvs, stage, db, stage', ht, haccess, rfl, rfl⟩ := step_access hstep
      have hold := h.threads n _ ht
      have hnew := hnext.threads n ⟨fd, recvs, stage'⟩ goOn_handlers_self
      obtain ⟨hnone, -, hsends, -⟩ := Stage.answer_of_access haccess
      have hclosing : stage ≠ .closing := by
        rintro rfl
        cases hsends
      refine ⟨?_, fun calls sent hhandled => ?_, nofun, nofun⟩
      · rintro m (⟨r', hinput⟩ | hinput | hinput) <;> cases hinput
      · obtain ⟨packet, hanswered⟩ := hold.answered hclosing hnone hnew hhandled
        exact ⟨n, packet, rfl, hanswered⟩
  | send n =>
      obtain ⟨fd, recvs, sent, ht, rfl, rfl⟩ := step_send hstep
      have hold := h.threads n _ ht
      refine ⟨?_, nofun, ?_, nofun⟩
      · rintro m (⟨r', hinput⟩ | hinput | hinput) <;> cases hinput
        exact hinv.own n _ ht
      · rintro m hinput
        cases hinput
        exact ⟨hold.sends, recvs, sent, hold.handled (by simp), rfl⟩
  | close n =>
      obtain ⟨fd, recvs, ht, rfl, rfl⟩ := step_close hstep
      have hold := h.threads n _ ht
      refine ⟨?_, nofun, nofun, ?_⟩
      · rintro m (⟨r', hinput⟩ | hinput | hinput) <;> cases hinput
        exact hinv.own n _ ht
      · rintro m hinput
        cases hinput
        exact hold.sends

/-! ## Runs -/

variable {events : List ProcessEvent} {before after : List (Entry Process ProcessEvent Use)}

/-- What holds after a run. -/
theorem tracked_of_run (hrun : run (step iter limit) Process.start events = .ok (p, log)) :
    Inv limit p ∧ Tracked log p := by
  have hinv := run_induction_of_ok (p := fun _ _ => True)
    (I := fun p log _ => Inv limit p ∧ Tracked log p)
    (fun _ _ _ _ _ _ ⟨hinv, htracked⟩ _ hstep => ⟨hinv.step hstep, htracked.step hinv hstep⟩)
    ⟨Inv.start, Tracked.start⟩ ((along_iff hrun).mpr fun _ _ => trivial) hrun
  exact hinv

/-- **A thread serves its own connection.** In every run of the process, in whatever order the
calls and the accesses to the database come and the descriptors are given, each call of a thread
is on the connection it was started for, it handles once what its own calls brought, and it sends
one answer, to that, before it closes the connection. -/
theorem serves_of_run
    (hrun : run (step iter limit) Process.start events = .ok (p, before ++ e :: after)) :
    Serves before e := by
  obtain ⟨hinv, htracked⟩ := tracked_of_run (run_of_log_eq hrun)
  obtain ⟨p', hstep⟩ := step_of_mem_log hrun (List.mem_append_right before List.mem_cons_self)
  exact htracked.serves hinv hstep

/-- The second connection is closed and its descriptor given again while the first waits. -/
theorem serves_of_run_descriptor_again :
    let events := [ProcessEvent.accept (.descriptor 4), .accept (.descriptor 5),
      .recv 1 (.data (serialize (App.requestPacket (.register [65])))), .access 1, .access 1,
      .access 1, .access 1, .send 1, .close 1, .accept (.descriptor 5),
      .recv 2 (.data (serialize (App.requestPacket (.users 0)))), .access 2,
      .recv 0 (.data (serialize (App.requestPacket (.register [66])))), .access 0, .access 2,
      .access 2, .send 2]
    ∃ p before e, run (step (.ascending _ _) 1024) Process.start events
        = .ok (p, before ++ e :: []) ∧ e.input = .send 2 ∧ Serves before e := by
  intro events
  have hok : (run (step (.ascending _ _) 1024) Process.start events).map (fun _ => true)
      = .ok true := by decide +kernel
  obtain ⟨⟨p, log⟩, hrun, -⟩ := map_eq_ok.mp hok
  obtain ⟨before, e, rfl⟩ : ∃ before e, log = before ++ [e] := by
    rcases List.eq_nil_or_concat log with rfl | ⟨before, e, rfl⟩
    · exact absurd (log_map_input hrun) (List.cons_ne_nil _ _).symm
    · exact ⟨before, e, List.concat_eq_append⟩
  have hinput : e.input = .send 2 := by
    have hlast := congrArg List.getLast? (log_map_input hrun)
    rw [List.map_append, List.map_singleton, List.getLast?_concat] at hlast
    exact Option.some.inj hlast
  exact ⟨p, before, e, hrun, hinput, serves_of_run hrun⟩

/-! ## One server -/

/-- Between the accesses of a registration. -/
def inRegistration : Stage → Bool
  | .storing _ _ | .counting | .assigning _ => true
  | _ => false

/-- Between the accesses of a listing. -/
def inListing : Stage → Bool
  | .walking _ _ _ => true
  | _ => false

/-- The next access is one of a registration. -/
def registers (stage : Stage) : Bool :=
  inRegistration stage || match stage with
    | .registering _ => true
    | _ => false

/-- A thread that accesses the database does not come between the accesses of a registration, nor,
with one of a registration, between those of a listing. -/
def Undisturbed (p : Process) : ProcessEvent → Prop
  | .access n => ∀ m < p.started, m ≠ n → ∀ u ∈ p.handlers m, inRegistration u.stage = false ∧
      ∀ t ∈ p.handlers n, registers t.stage = true → inListing u.stage = false
  | _ => True

instance (p : Process) (event : ProcessEvent) : Decidable (p.Undisturbed event) :=
  match event with
  | .access n => inferInstanceAs (Decidable (∀ m < p.started, m ≠ n → ∀ u ∈ p.handlers m, _))
  | .accept _ | .recv _ _ | .send _ | .close _ => .isTrue trivial

/-- The database when a registration has stored the user. -/
def stored (db : Database) (username : Bytes) : Database :=
  { db with userMap := db.userMap.insert db.nextId ⟨username, []⟩ }

/-- How far a thread is, as a server sees it that takes one connection after the other and has the
database `db`. The database of the threads is `shared`. -/
def Doing (iter : Traversal UserId UserMetadata) (db shared : Database) (recvs : List Recv) :
    Stage → Prop
  | .registering username => Stage.arrived recvs = .registering username
  | .storing username id =>
      Stage.arrived recvs = .registering username ∧ shared = db ∧ id = db.nextId
  | .counting => ∃ username, Stage.arrived recvs = .registering username ∧
      shared = stored db username
  | .assigning id => ∃ username, Stage.arrived recvs = .registering username ∧
      shared = stored db username ∧ id = db.nextId
  | .lookingUp requestorId => Stage.arrived recvs = .lookingUp requestorId
  | .walking requestorId passed onlineUsers => Stage.arrived recvs = .lookingUp requestorId ∧
      db.userExists requestorId = true ∧
      onlineUsers = (((iter.order db.userMap).take passed).filter
        (fun it => it.1 ≠ requestorId)).map ServerApp.onlineUser
  | .receiving | .sending _ | .closing => True

/-- The server that takes one connection after the other has the same database, unless a
registration is under way. -/
structure Abstracts (iter : Traversal UserId UserMetadata) (p : Process) (db : Database) :
    Prop where
  shared : (∀ n t, p.handlers n = some t → inRegistration t.stage = false) → p.db = db
  threads : ∀ n t, p.handlers n = some t → Doing iter db p.db t.recvs t.stage

section Serve

open ServerApp

variable {db : Database} {recvs : List Recv} {packet : Mcc.Packet}

/-- What the sequential server does for a packet, when it builds a response. -/
theorem serve_of_answer {resp : Mcc.Packet} {db' : Database} (hr : received recvs = some packet)
    (hanswer : answer iter db packet = some (resp, db')) :
    ∃ h, serveConnection iter db recvs = (db', some h) ∧ Stage.respond resp = .sending h.sent := by
  refine ⟨handlePacket iter db packet, ?_, ?_⟩
  · rw [serveConnection, handleRequest_eq, hr, Option.map_some]
    dsimp only
    rw [handlePacket_of_some iter db hanswer]
  · rw [handlePacket_of_some iter db hanswer]
    rfl

/-- A stage other than the first is that of the packet. -/
theorem received_of_arrived {stage : Stage} (h : Stage.arrived recvs = stage)
    (hne : stage ≠ .receiving) :
    ∃ packet, received recvs = some packet ∧ Stage.dispatch packet = stage := by
  rw [Stage.arrived_eq] at h
  rcases hr : received recvs with _ | packet
  · rw [hr] at h
    exact absurd h.symm hne
  · rw [hr] at h
    exact ⟨packet, rfl, h⟩

/-- The response to a packet, by the first access. -/
theorem answer_of_dispatch (iter : Traversal UserId UserMetadata) (db : Database)
    (packet : Mcc.Packet) :
    answer iter db packet = match Stage.dispatch packet with
      | .registering username =>
          some (registerResponse db.nextId, (db.registerUser username).2)
      | .lookingUp requestorId => some (usersResponse iter db requestorId, db)
      | _ => none := by
  unfold Stage.dispatch answer
  cases ((packet.hdr.getD {}).packetType).getD .requestRegister with
  | requestRegister =>
      dsimp only
      rw [answerRegister]
      cases packet.reqReg.bind (·.username) <;> rfl
  | requestUsers =>
      dsimp only
      rw [answerUsers]
      cases packet.reqUsers.bind (·.requestorId) <;> rfl
  | _ => rfl

theorem serve_of_registering (iter : Traversal UserId UserMetadata) (db : Database)
    {username : Bytes} (h : Stage.arrived recvs = .registering username) :
    ∃ handled, serveConnection iter db recvs = ((db.registerUser username).2, some handled) ∧
      Stage.respond (registerResponse db.nextId) = .sending handled.sent := by
  obtain ⟨packet, hr, hdispatch⟩ := received_of_arrived h nofun
  refine serve_of_answer hr ?_
  rw [answer_of_dispatch, hdispatch]

theorem serve_of_lookingUp (iter : Traversal UserId UserMetadata) (db : Database)
    {requestorId : UserId} (h : Stage.arrived recvs = .lookingUp requestorId) :
    ∃ handled, serveConnection iter db recvs = (db, some handled) ∧
      Stage.respond (usersResponse iter db requestorId) = .sending handled.sent := by
  obtain ⟨packet, hr, hdispatch⟩ := received_of_arrived h nofun
  refine serve_of_answer hr ?_
  rw [answer_of_dispatch, hdispatch]

theorem serve_of_sending (iter : Traversal UserId UserMetadata) (db : Database)
    {sent : Except Fault Bytes} (h : Stage.arrived recvs = .sending sent) :
    ∃ handled, serveConnection iter db recvs = (db, some handled) ∧ handled.sent = .ok [] := by
  obtain ⟨packet, hr, hdispatch⟩ := received_of_arrived h nofun
  have hnone : answer iter db packet = none := by rw [answer_of_dispatch, hdispatch]
  refine ⟨handlePacket iter db packet, ?_, ?_⟩
  · rw [serveConnection, handleRequest_eq, hr, Option.map_some]
    dsimp only
    rw [handlePacket_of_none iter db hnone]
  · rw [handlePacket_of_none iter db hnone]
    rfl

end Serve

variable {db db' shared shared' : Database} {recvs : List Recv} {stage stage' : Stage}

/-- A thread that is not in a registration does not depend on what the others store, and one that
is not in a listing either does not depend on who has registered. -/
theorem Doing.congr (h : Doing iter db shared recvs stage) (hreg : inRegistration stage = false)
    (hdb : db' = db ∨ inListing stage = false) : Doing iter db' shared' recvs stage := by
  cases stage with
  | walking requestorId passed onlineUsers =>
      rcases hdb with rfl | hlist
      · exact h
      · cases hlist
  | storing username id => cases hreg
  | counting => cases hreg
  | assigning id => cases hreg
  | _ => exact h

/-- A thread goes on, and no other one is in a registration. -/
theorem Abstracts.goOn (h : Abstracts iter p db) {n : ℕ} {t : Handler}
    (hothers : ∀ m u, m ≠ n → p.handlers m = some u →
      inRegistration u.stage = false ∧ (db' = db ∨ inListing u.stage = false))
    (hself : Doing iter db' shared' t.recvs t.stage)
    (hshared : inRegistration t.stage = false → shared' = db') :
    Abstracts iter { p.goOn n t with db := shared' } db' where
  shared hidle := hshared (hidle n t goOn_handlers_self)
  threads m u hu := by
    rcases handlers_of_goOn hu with ⟨rfl, rfl⟩ | ⟨hm, hold⟩
    · exact hself
    · exact (h.threads m u hold).congr (hothers m u hm hold).1 (hothers m u hm hold).2

/-- A thread goes on, and the databases stay as they are. -/
theorem Abstracts.stay (h : Abstracts iter p db) {n : ℕ} {t t' : Handler}
    (ht : p.handlers n = some t) (hreg : inRegistration t.stage = false)
    (hself : Doing iter db p.db t'.recvs t'.stage) : Abstracts iter (p.goOn n t') db where
  shared hidle := h.shared fun m u hu => by
    by_cases hm : m = n
    · subst hm
      obtain rfl : t = u := Option.some.inj (ht.symm.trans hu)
      exact hreg
    · exact hidle m u ((goOn_handlers_of_ne hm).trans hu)
  threads m u hu := by
    rcases handlers_of_goOn hu with ⟨rfl, rfl⟩ | ⟨-, hold⟩
    · exact hself
    · exact h.threads m u hold

/-- What a step is for the sequential server: nothing, or the connection that it handles. -/
def Serving (iter : Traversal UserId UserMetadata) (p' : Process) (db : Database)
    (handled : Option (List Recv × Except Fault Bytes)) : Prop :=
  (handled = none ∧ Abstracts iter p' db) ∨ ∃ recvs db' h,
    handled = some (recvs, h.sent) ∧ ServerApp.serveConnection iter db recvs = (db', some h) ∧
    Abstracts iter p' db'

/-- **One access.** -/
theorem Abstracts.access (h : Abstracts iter p db) {n : ℕ} {fd : Int}
    (ht : p.handlers n = some ⟨fd, recvs, stage⟩)
    (hothers : ∀ m u, m ≠ n → p.handlers m = some u → inRegistration u.stage = false ∧
      (registers stage = true → inListing u.stage = false))
    (haccess : stage.access iter p.db = some (shared', stage')) :
    Serving iter { p.goOn n ⟨fd, recvs, stage'⟩ with db := shared' } db
      (stage'.answer.map fun sent => (recvs, sent)) := by
  have hdoing : Doing iter db p.db recvs stage := h.threads n _ ht
  have hsame : inRegistration stage = false → p.db = db := fun hreg =>
    h.shared fun m u hu => by
      by_cases hm : m = n
      · subst hm
        obtain rfl := Option.some.inj (ht.symm.trans hu)
        exact hreg
      · exact (hothers m u hm hu).1
  have hstay : ∀ m u, m ≠ n → p.handlers m = some u →
      inRegistration u.stage = false ∧ (db = db ∨ inListing u.stage = false) :=
    fun m u hm hu => ⟨(hothers m u hm hu).1, .inl rfl⟩
  cases stage with
  | registering username =>
      cases haccess
      have hdb := hsame rfl
      exact .inl ⟨rfl, h.goOn hstay ⟨hdoing, hdb, by rw [hdb]⟩ nofun⟩
  | storing username id =>
      obtain ⟨harrived, hdb, rfl⟩ := hdoing
      cases haccess
      exact .inl ⟨rfl, h.goOn hstay ⟨username, harrived, by rw [hdb]; rfl⟩ nofun⟩
  | counting =>
      obtain ⟨username, harrived, hdb⟩ := hdoing
      cases haccess
      exact .inl ⟨rfl, h.goOn hstay ⟨username, harrived, hdb, by rw [hdb]; rfl⟩ nofun⟩
  | assigning id =>
      obtain ⟨username, harrived, hdb, rfl⟩ := hdoing
      cases haccess
      obtain ⟨handled, hserve, hsent⟩ := serve_of_registering iter db harrived
      rw [hsent]
      refine .inr ⟨recvs, _, handled, rfl, hserve, h.goOn (fun m u hm hu => ?_) trivial fun _ => ?_⟩
      · exact ⟨(hothers m u hm hu).1, .inr ((hothers m u hm hu).2 rfl)⟩
      · rw [hdb]
        rfl
  | lookingUp requestorId =>
      have hdb := hsame rfl
      have harrived : Stage.arrived recvs = .lookingUp requestorId := hdoing
      simp only [Stage.access] at haccess
      split_ifs at haccess with hexists
      · cases haccess
        obtain ⟨handled, hserve, hsent⟩ := serve_of_lookingUp iter db harrived
        rw [ServerApp.usersResponse, if_pos (hdb ▸ hexists)] at hsent
        rw [show Stage.respond (Stage.usersPacket _) = _ from hsent]
        exact .inr ⟨recvs, db, handled, rfl, hserve, h.goOn hstay trivial fun _ => hdb⟩
      · cases haccess
        refine .inl ⟨rfl, h.goOn hstay ⟨harrived, ?_, rfl⟩ fun _ => hdb⟩
        rw [← hdb]
        simpa using hexists
  | walking requestorId passed onlineUsers =>
      have hdb := hsame rfl
      obtain ⟨harrived, hexists, rfl⟩ := hdoing
      simp only [Stage.access, hdb] at haccess
      split at haccess
      · next hend =>
          cases haccess
          obtain ⟨handled, hserve, hsent⟩ := serve_of_lookingUp iter db harrived
          rw [ServerApp.usersResponse, if_neg (by simp [hexists])] at hsent
          rw [List.take_of_length_le (List.getElem?_eq_none_iff.mp hend),
            show Stage.respond (Stage.usersPacket _) = _ from hsent]
          exact .inr ⟨recvs, db, handled, rfl, hserve, h.goOn hstay trivial fun _ => rfl⟩
      · next it hit =>
          have htake : (iter.order db.userMap).take (passed + 1)
              = (iter.order db.userMap).take passed ++ [it] := by
            rw [List.take_add_one, hit]
            rfl
          split_ifs at haccess with hself
          · cases haccess
            refine .inl ⟨rfl, h.goOn hstay ⟨harrived, hexists, ?_⟩ fun _ => rfl⟩
            rw [htake, List.filter_append, List.filter_cons_of_neg (by simp [hself]),
              List.filter_nil, List.append_nil]
          · cases haccess
            refine .inl ⟨rfl, h.goOn hstay ⟨harrived, hexists, ?_⟩ fun _ => rfl⟩
            rw [htake, List.filter_append, List.filter_cons_of_pos (by simp [hself]),
              List.filter_nil, List.map_append, List.map_singleton]
  | receiving => cases haccess
  | sending sent => cases haccess
  | closing => cases haccess

/-- **The step lemma.** -/
theorem Abstracts.step (h : Abstracts iter p db) (hinv : Inv limit p) {event : ProcessEvent}
    (hundisturbed : p.Undisturbed event) (hstep : p.step iter limit event = .ok (p', use)) :
    Serving iter p' db use.handled := by
  cases event with
  | accept r =>
      rcases step_accept hstep with ⟨fd, rfl, -, haccept⟩ | ⟨-, rfl, rfl⟩
      · obtain ⟨rfl, rfl⟩ := Prod.mk.inj haccept
        have hold (n : ℕ) (t : Handler) (ht : p.handlers n = some t) :
            (p.accept (.descriptor fd)).1.handlers n = some t :=
          (accept_handlers_of_ne (hinv.lt_started ht).ne).trans ht
        refine .inl ⟨rfl, fun hidle => h.shared fun n t ht => hidle n t (hold n t ht), ?_⟩
        intro n t ht
        rcases handlers_of_accept ht with ⟨rfl, rfl⟩ | ⟨-, hold⟩
        · trivial
        · exact h.threads n t hold
      · exact .inl ⟨rfl, h⟩
  | recv n r =>
      obtain ⟨fd, recvs, ht, rfl, rfl⟩ := step_recv hstep
      rcases Stage.arrived_cases (recvs ++ [r]) with
        harrived | ⟨username, harrived⟩ | ⟨requestorId, harrived⟩ | harrived
      · rw [harrived]
        exact .inl ⟨rfl, h.stay ht rfl trivial⟩
      · rw [harrived]
        exact .inl ⟨rfl, h.stay ht rfl harrived⟩
      · rw [harrived]
        exact .inl ⟨rfl, h.stay ht rfl harrived⟩
      · obtain ⟨handled, hserve, hsent⟩ := serve_of_sending iter db harrived
        rw [harrived, ← hsent]
        exact .inr ⟨_, db, handled, rfl, hserve, h.stay ht rfl trivial⟩
  | access n =>
      obtain ⟨fd, recvs, stage, shared', stage', ht, haccess, rfl, rfl⟩ := step_access hstep
      refine h.access ht (fun m u hm hu => ?_) haccess
      obtain ⟨hreg, hlist⟩ := hundisturbed m (hinv.lt_started hu) hm u hu
      exact ⟨hreg, hlist _ ht⟩
  | send n =>
      obtain ⟨fd, recvs, sent, ht, rfl, rfl⟩ := step_send hstep
      exact .inl ⟨rfl, h.stay ht rfl trivial⟩
  | close n =>
      obtain ⟨fd, recvs, ht, rfl, rfl⟩ := step_close hstep
      refine .inl ⟨rfl, fun hidle => h.shared fun m u hu => ?_, fun m u hu => ?_⟩
      · by_cases hm : m = n
        · subst hm
          obtain rfl := Option.some.inj (ht.symm.trans hu)
          rfl
        · exact hidle m u ((shut_handlers_of_ne hm).trans hu)
      · exact h.threads m u (handlers_of_shut hu).2

/-- **The threads are one server**, if no thread comes between the accesses of a registration, or
registers while another is in its loop over the users. The requests of the run, taken in the order
in which their handling ends, are then a run of a server that takes one connection after the
other: every request is answered the same, and the database is the same whenever no registration
is under way. -/
theorem sequential_of_run (hrun : run (step iter limit) Process.start events = .ok (p, log))
    (hundisturbed : Along (step iter limit) Undisturbed Process.start events) :
    ∃ db served, run (total (ServerApp.serveConnection iter)) .empty
        (log.filterMap fun e => e.output.handled.map Prod.fst) = .ok (db, served) ∧
      ((∀ n t, p.handlers n = some t → inRegistration t.stage = false) → p.db = db) ∧
      log.filterMap (fun e => e.output.handled.map Prod.snd)
        = served.filterMap fun e => e.output.map ServerApp.Handled.sent := by
  obtain ⟨db, served, hserved, ⟨-, habstracts⟩, hlog⟩ :=
    run_simulation_entries (total (ServerApp.serveConnection iter))
      (fun e => e.output.handled.map Prod.fst) (fun p db _ => Inv limit p ∧ Abstracts iter p db)
      (fun e e' => e.output.handled.map Prod.snd = e'.output.map ServerApp.Handled.sent)
      (fun p db _ _ p' use ⟨hinv, h⟩ hund hstep hnone => by
        rcases h.step hinv hund hstep with ⟨-, hnext⟩ | ⟨recvs, db', handled, hsome, -⟩
        · exact ⟨hinv.step hstep, hnext⟩
        · simp [hsome] at hnone)
      (fun p db _ _ p' use calls ⟨hinv, h⟩ hund hstep hcalls => by
        rcases h.step hinv hund hstep with ⟨hnone, -⟩ | ⟨recvs, db', handled, hsome, hserve, hnext⟩
        · simp [hnone] at hcalls
        · have heq : recvs = calls := by simpa [hsome] using hcalls
          rw [heq] at hserve
          exact ⟨db', some handled, total_eq_ok.mpr hserve, ⟨hinv.step hstep, hnext⟩,
            by simp [hsome]⟩)
      (⟨Inv.start, fun _ => rfl, fun n t ht => by cases ht⟩ :
        Inv limit Process.start ∧ Abstracts iter Process.start .empty)
      hundisturbed hrun
  refine ⟨db, served, hserved, habstracts.shared, filterMap_eq_of_forall₂ hlog fun e _ hnone => ?_⟩
  rw [Option.map_eq_none_iff] at hnone ⊢
  exact hnone

/-- One thread registers a user; the others look the users up, each while the other one does. -/
theorem sequential_of_run_two_listings :
    let data : Request → Recv := fun r => .data (serialize (App.requestPacket r))
    let events := [ProcessEvent.accept (.descriptor 4), .accept (.descriptor 5),
      .recv 0 .wouldBlock, .recv 1 (data (.register [65])), .access 1,
      .recv 0 (data (.users 0)), .access 1, .access 1, .access 1, .access 0,
      .accept (.descriptor 6), .send 1, .recv 2 (data (.users 0)), .access 2, .access 0,
      .access 2, .access 2, .access 0, .send 0]
    ∃ p log, run (step (.ascending _ _) 1024) Process.start events = .ok (p, log) ∧
      ∃ db served, run (total (ServerApp.serveConnection (.ascending _ _))) .empty
          (log.filterMap fun e => e.output.handled.map Prod.fst) = .ok (db, served) ∧
        ((∀ n t, p.handlers n = some t → inRegistration t.stage = false) → p.db = db) ∧
        log.filterMap (fun e => e.output.handled.map Prod.snd)
          = served.filterMap fun e => e.output.map ServerApp.Handled.sent := by
  intro data events
  have hok : (run (step (.ascending _ _) 1024) Process.start events).map (fun _ => true)
      = .ok true := by decide +kernel
  obtain ⟨⟨p, log⟩, hrun, -⟩ := map_eq_ok.mp hok
  exact ⟨p, log, hrun, sequential_of_run hrun (by decide +kernel)⟩

/-- Two threads register a user, and each stores its own before the other has counted: the first
user is lost, though both are told an id. -/
theorem not_sequential_two_registrations :
    let data : Request → Recv := fun r => .data (serialize (App.requestPacket r))
    let events := [ProcessEvent.accept (.descriptor 4), .accept (.descriptor 5),
      .recv 0 (data (.register [65])), .recv 1 (data (.register [66])), .access 0, .access 1,
      .access 0, .access 1, .access 0, .access 0, .access 1, .access 1]
    ∃ p log, run (step (.ascending _ _) 1024) Process.start events = .ok (p, log) ∧
      log.filterMap (fun e => e.output.handled.map Prod.snd)
        = [.ok (serialize (ServerApp.registerResponse 0)),
          .ok (serialize (ServerApp.registerResponse 1))] ∧
      p.db.nameOf 0 = some [66] ∧ p.db.nameOf 1 = none := by
  intro data events
  have hok : (run (step (.ascending _ _) 1024) Process.start events).map
      (fun out => (out.2.filterMap (fun e => e.output.handled.map Prod.snd),
        out.1.db.nameOf 0, out.1.db.nameOf 1))
      = .ok ([.ok (serialize (ServerApp.registerResponse 0)),
          .ok (serialize (ServerApp.registerResponse 1))], some [66], none) := by decide +kernel
  obtain ⟨⟨p, log⟩, hrun, hout⟩ := map_eq_ok.mp hok
  simp only [Prod.mk.injEq] at hout
  exact ⟨p, log, hrun, hout.1, hout.2.1, hout.2.2⟩

/-! ## Silent peers -/

/-- The connection was accepted. -/
def Accepted (n : ℕ) (log : List (Entry Process ProcessEvent Use)) : Prop :=
  ∃ e ∈ log, ∃ fd, e.input = .accept (.descriptor fd) ∧ e.output.file = some (.connection n)

/-- The peer has sent nothing that wakes the thread: no byte and no error. A peer that has
closed the connection does not wake it either. -/
def Silent (n : ℕ) (log : List (Entry Process ProcessEvent Use)) : Prop :=
  ∀ r ∈ callsOf n log, ¬r.Wakes

theorem arrived_of_silent {recvs : List Recv} (h : ∀ r ∈ recvs, ¬r.Wakes) :
    Stage.arrived recvs = .receiving := by
  have harrived : ¬(arrived ServerApp.bufferSize recvs).isSome := by
    rw [arrived_isSome_iff (by decide)]
    rintro ⟨r, hr, hwakes⟩
    exact h r hr hwakes
  rw [Option.not_isSome_iff_eq_none] at harrived
  rw [Stage.arrived_eq, ServerApp.received_eq, harrived]
  rfl

/-- The threads of silent peers wait. -/
def Waiting (log : List (Entry Process ProcessEvent Use)) (p : Process) : Prop :=
  ∀ n, Accepted n log → Silent n log → ∃ fd recvs, p.handlers n = some ⟨fd, recvs, .receiving⟩

theorem Accepted.concat_iff {n : ℕ} {log : List (Entry Process ProcessEvent Use)}
    {e : Entry Process ProcessEvent Use} : Accepted n (log ++ [e]) ↔ Accepted n log ∨
      ∃ fd, e.input = .accept (.descriptor fd) ∧ e.output.file = some (.connection n) := by
  simp only [Accepted, List.mem_append, List.mem_singleton, or_and_right, exists_or,
    exists_eq_left]

theorem Silent.of_append {n : ℕ} {log more : List (Entry Process ProcessEvent Use)}
    (h : Silent n (log ++ more)) : Silent n log := by
  intro r hr
  refine h r ?_
  rw [callsOf, List.filterMap_append]
  exact List.mem_append_left _ hr

/-- A step of another thread leaves a thread that waits waiting. -/
theorem waiting_of_ne {n m : ℕ} {t : Handler} (t' : Handler) (ht : p.handlers n = some t)
    (hstage : t.stage ≠ .receiving)
    (h : ∃ fd recvs, p.handlers m = some ⟨fd, recvs, .receiving⟩) :
    m ≠ n ∧ ∃ fd recvs, (p.goOn n t').handlers m = some ⟨fd, recvs, .receiving⟩ := by
  obtain ⟨fd, recvs, hm⟩ := h
  have hne : m ≠ n := by
    rintro rfl
    obtain rfl := Option.some.inj (ht.symm.trans hm)
    exact hstage rfl
  exact ⟨hne, fd, recvs, (goOn_handlers_of_ne hne).trans hm⟩

/-- **The step lemma.** A thread whose peer is silent goes round its loop once more. -/
theorem Waiting.step (h : Waiting log p) (hinv : Inv limit p) (htracked : Tracked log p)
    {event : ProcessEvent} (hstep : p.step iter limit event = .ok (p', use)) :
    Waiting (log ++ [⟨p, event, use⟩]) p' := by
  intro m haccepted hsilent
  have hsilent' : Silent m log := hsilent.of_append
  rw [Accepted.concat_iff] at haccepted
  cases event with
  | accept r =>
      rcases step_accept hstep with ⟨fd, -, -, haccept⟩ | ⟨-, rfl, rfl⟩
      · obtain ⟨rfl, rfl⟩ := Prod.mk.inj haccept
        rcases haccepted with hold | ⟨fd', -, hfile⟩
        · obtain ⟨fd', recvs, ht⟩ := h m hold hsilent'
          exact ⟨fd', recvs, (accept_handlers_of_ne (hinv.lt_started ht).ne).trans ht⟩
        · obtain rfl : p.started = m := File.connection.inj (Option.some.inj hfile)
          exact ⟨_, [], accept_handlers_self⟩
      · refine h m (haccepted.resolve_right ?_) hsilent'
        rintro ⟨fd, -, hfile⟩
        cases hfile
  | recv n r =>
      have hold : Accepted m log := haccepted.resolve_right fun ⟨fd, hinput, _⟩ => by cases hinput
      obtain ⟨fd, recvs, ht, rfl, -⟩ := step_recv hstep
      by_cases hm : m = n
      · subst hm
        have hnext := (htracked.step hinv hstep).threads m _ goOn_handlers_self
        have hcalls : recvs ++ [r] = callsOf m (log ++ [⟨p, .recv m r, use⟩]) := hnext.recvs
        have hwaits : Stage.arrived (recvs ++ [r]) = .receiving :=
          arrived_of_silent (hcalls ▸ hsilent)
        rw [hwaits]
        exact ⟨fd, recvs ++ [r], goOn_handlers_self⟩
      · obtain ⟨fd', recvs', hwait⟩ := h m hold hsilent'
        exact ⟨fd', recvs', (goOn_handlers_of_ne hm).trans hwait⟩
  | access n =>
      have hold : Accepted m log := haccepted.resolve_right fun ⟨fd, hinput, _⟩ => by cases hinput
      obtain ⟨fd, recvs, stage, db, stage', ht, haccess, rfl, -⟩ := step_access hstep
      exact (waiting_of_ne _ ht (Stage.answer_of_access haccess).2.1 (h m hold hsilent')).2
  | send n =>
      have hold : Accepted m log := haccepted.resolve_right fun ⟨fd, hinput, _⟩ => by cases hinput
      obtain ⟨fd, recvs, sent, ht, rfl, -⟩ := step_send hstep
      exact (waiting_of_ne _ ht (by simp) (h m hold hsilent')).2
  | close n =>
      have hold : Accepted m log := haccepted.resolve_right fun ⟨fd, hinput, _⟩ => by cases hinput
      obtain ⟨fd, recvs, ht, rfl, -⟩ := step_close hstep
      have hwait := h m hold hsilent'
      obtain ⟨hm, -⟩ := waiting_of_ne ⟨fd, recvs, .closing⟩ ht (by simp) hwait
      obtain ⟨fd', recvs', hm'⟩ := hwait
      exact ⟨fd', recvs', (shut_handlers_of_ne hm).trans hm'⟩

theorem waiting_of_run (hrun : run (step iter limit) Process.start events = .ok (p, log)) :
    Waiting log p := by
  have hstart : Waiting [] Process.start := by
    rintro n ⟨e, he, -⟩
    cases he
  have hinv := run_induction_of_ok (p := fun _ _ => True)
    (I := fun p log _ => Inv limit p ∧ Tracked log p ∧ Waiting log p)
    (fun _ _ _ _ _ _ ⟨hinv, htracked, hwaiting⟩ _ hstep =>
      ⟨hinv.step hstep, htracked.step hinv hstep, hwaiting.step hinv htracked hstep⟩)
    ⟨Inv.start, Tracked.start, hstart⟩ ((along_iff hrun).mpr fun _ _ => trivial) hrun
  exact hinv.2.2

/-- **Silent peers starve the server.** When as many connections as the process has descriptors
for have been accepted from peers that say nothing, or close, no connection is accepted in the
rest of the run. -/
theorem starved_of_run
    (hrun : run (step iter limit) Process.start events = .ok (p, before ++ after))
    (silent : Finset ℕ) (hfull : limit - 4 ≤ silent.card)
    (haccepted : ∀ n ∈ silent, Accepted n before)
    (hsilent : ∀ n ∈ silent, Silent n (before ++ after)) {fd : Int} (he : e ∈ after) :
    e.input ≠ .accept (.descriptor fd) := by
  intro hinput
  obtain ⟨after₁, after₂, rfl⟩ := List.append_of_mem he
  rw [← List.append_assoc] at hrun hsilent
  have hprefix := run_of_log_eq hrun
  obtain ⟨hinv, -⟩ := tracked_of_run hprefix
  have hwaiting := waiting_of_run hprefix
  obtain ⟨p', hstep⟩ := step_of_mem_log hrun
    (List.mem_append_right (before ++ after₁) (List.mem_cons_self (a := e)))
  have hinv' := hinv.step hstep
  -- The silent peers' threads are still there, and the new one would be one more.
  have hlive : ∀ n ∈ silent, n ∈ e.before.live := by
    intro n hn
    obtain ⟨e', he', haccept⟩ := haccepted n hn
    obtain ⟨fd, recvs, ht⟩ := hwaiting n ⟨e', List.mem_append_left _ he', haccept⟩
      (hsilent n hn).of_append
    exact (hinv.mem_live_iff n).mpr ⟨_, ht⟩
  rw [hinput] at hstep
  rcases step_accept hstep with ⟨fd', -, -, haccept⟩ | ⟨hnot, -, -⟩
  · obtain rfl : (e.before.accept (.descriptor fd')).1 = p' := congrArg Prod.fst haccept
    have hnew : e.before.started ∉ silent := fun hmem => by
      obtain ⟨t, ht⟩ := (hinv.mem_live_iff _).mp (hlive _ hmem)
      rw [hinv.fresh _ (Nat.le_refl _)] at ht
      cases ht
    have hsubset : insert e.before.started silent ⊆ (e.before.accept (.descriptor fd')).1.live := by
      intro n hn
      rw [hinv'.mem_live_iff]
      rcases Finset.mem_insert.mp hn with rfl | hmem
      · exact ⟨_, accept_handlers_self⟩
      · obtain ⟨t, ht⟩ := (hinv.mem_live_iff n).mp (hlive n hmem)
        exact ⟨t, (accept_handlers_of_ne (ne_of_mem_of_not_mem hmem hnew)).trans ht⟩
    have hcard : silent.card + 1 ≤ (limit - 4).toNat :=
      calc silent.card + 1 = (insert e.before.started silent).card :=
            (Finset.card_insert_of_notMem hnew).symm
        _ ≤ (e.before.accept (.descriptor fd')).1.live.card := Finset.card_le_card hsubset
        _ ≤ (limit - 4).toNat := hinv'.live_card_le
    omega
  · exact hnot fd rfl

/-- The peer of a process with room for one connection says nothing, and closes. -/
theorem starved_of_run_one_peer :
    let events := [ProcessEvent.accept .wouldBlock, .accept (.descriptor 4), .recv 0 .wouldBlock,
      .recv 0 .closed, .accept .error]
    ∃ p before after, run (step (.ascending _ _) 5) Process.start events
        = .ok (p, before ++ after) ∧ after.length = 3 ∧
      ∀ e ∈ after, ∀ fd, e.input ≠ .accept (.descriptor fd) := by
  intro events
  have hok : (run (step (.ascending _ _) 5) Process.start events).map
      (fun out => out.2.map fun e => (e.input, e.output.file))
      = .ok [(.accept .wouldBlock, none), (.accept (.descriptor 4), some (.connection 0)),
          (.recv 0 .wouldBlock, some (.connection 0)), (.recv 0 .closed, some (.connection 0)),
          (.accept .error, none)] := by decide +kernel
  obtain ⟨⟨p, log⟩, hrun, hlog⟩ := map_eq_ok.mp hok
  obtain ⟨e₀, log, rfl, h₀, hlog⟩ := List.map_eq_cons_iff.mp hlog
  obtain ⟨e₁, log, rfl, h₁, hlog⟩ := List.map_eq_cons_iff.mp hlog
  obtain ⟨e₂, log, rfl, h₂, hlog⟩ := List.map_eq_cons_iff.mp hlog
  obtain ⟨e₃, log, rfl, h₃, hlog⟩ := List.map_eq_cons_iff.mp hlog
  obtain ⟨e₄, log, rfl, h₄, hlog⟩ := List.map_eq_cons_iff.mp hlog
  obtain rfl := List.map_eq_nil_iff.mp hlog
  have hsplit : run (step (.ascending _ _) 5) Process.start events
      = .ok (p, [e₀, e₁] ++ [e₂, e₃, e₄]) := hrun
  have haccepted : ∀ n ∈ ({0} : Finset ℕ), Accepted n [e₀, e₁] := by
    intro n hn
    rw [Finset.mem_singleton.mp hn]
    exact ⟨e₁, by simp, 4, congrArg Prod.fst h₁, congrArg Prod.snd h₁⟩
  have hsilent : ∀ n ∈ ({0} : Finset ℕ), Silent n ([e₀, e₁] ++ [e₂, e₃, e₄]) := by
    intro n hn r hr
    have hinputs := log_map_input hsplit
    have hcalls : callsOf n ([e₀, e₁] ++ [e₂, e₃, e₄]) = events.filterMap (recvOf n) := by
      rw [← hinputs, callsOf, List.filterMap_map]
      rfl
    rw [hcalls, Finset.mem_singleton.mp hn] at hr
    have hwaits : r ∈ [Recv.wouldBlock, .closed] := hr
    obtain rfl | rfl : r = .wouldBlock ∨ r = .closed := by simpa using hwaits
    · exact id
    · exact id
  exact ⟨p, [e₀, e₁], [e₂, e₃, e₄], hsplit, rfl, fun e he fd =>
    starved_of_run hsplit {0} (by decide) haccepted hsilent he⟩

end Process

end ChatApp
