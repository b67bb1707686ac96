import ChatApp.Client.App
import ChatApp.Lib.Run

set_option autoImplicit false

/-! # What a client decodes from a buffer it has used before

The two polls and a chat keep their receive buffer from one iteration to the next and parse
all of it, not the bytes that arrived: behind a response stands what is left of longer ones
before it. A response is read as it would be from a cleared buffer if the read does not go
on into these bytes (`Settled`). A response of the server is a whole number of fields, so
this is the case if the next byte left is zero; otherwise the fields found there are merged
into the response. A field whose length runs over the response always reaches into these bytes,
also one inside a member, so no response with such a field is settled.

`LoopState.settled_alike` is about any two iterations of any two runs: the same bytes, the
same packet.
-/

namespace ChatApp

open Lib Lib.Wire Lib.Wire.Message

/-- The loops that keep their buffers. -/
inductive Loop
  | onlineUsers
  | chat (targetUser : Bytes)
  | messages
  deriving Repr, DecidableEq

/-- What an iteration acts upon: the map of a positive response or none, the status of a line
and whether the chat goes on, the messages to show. -/
inductive Acted
  | users (nameToId : Option (UnorderedMap Bytes UserId))
  | status (goesOn : Bool) (written : List Bytes)
  | messages (msgs : List Mcc.UserMessage)
  deriving DecidableEq

def Loop.act (respPacket : Mcc.Packet) : Loop → Acted
  | .onlineUsers =>
      if ((respPacket.respUsers.getD {}).respValue).getD 0 ≠ 0 then .users none
      else .users (some (App.newNameToId respPacket))
  | .chat _ => .status (App.chatVerdict respPacket).1 (App.chatVerdict respPacket).2
  | .messages => .messages (respPacket.respRecv.getD {}).messages

/-- A loop between two iterations; a chat may be over. -/
structure LoopState where
  app : App
  rxBuffer : Bytes
  txBuffer : Bytes
  finished : Bool := false
  deriving DecidableEq

/-- What an iteration is given: in a chat the line typed, and what the calls of `recv` come
back with. -/
structure Iteration where
  line : Bytes := []
  recvs : List Recv
  deriving Repr, DecidableEq

/-- What an iteration decodes and acts upon. -/
structure Decoded where
  respPacket : Mcc.Packet
  acted : Acted
  deriving DecidableEq

namespace LoopState

/-- One iteration, if it comes about: nothing is decoded while no chunk arrives, nor in a chat
that is over. -/
def step (iter : Traversal Bytes UserId) (loop : Loop) (s : LoopState) (it : Iteration) :
    Except Unit (LoopState × Decoded) :=
  if s.finished then .error ()
  else
    match loop with
    | .onlineUsers =>
        match s.app.roundOnlineUsers iter s.rxBuffer s.txBuffer it.recvs with
        | (_, none) => .error ()
        | ((_, txBuffer), some (respPacket, app, rxBuffer, _)) =>
            .ok (⟨app, rxBuffer, txBuffer, false⟩, ⟨respPacket, loop.act respPacket⟩)
    -- The line `x` leaves the chat before anything is sent or received.
    | .chat targetUser =>
        if it.line = text "x" then .error ()
        else
          match s.app.roundChat targetUser it.line s.rxBuffer s.txBuffer it.recvs with
          | (_, _, none) => .error ()
          | ((_, txBuffer), app, some (respPacket, rxBuffer, goesOn, _)) =>
              .ok (⟨app, rxBuffer, txBuffer, !goesOn⟩, ⟨respPacket, loop.act respPacket⟩)
    | .messages =>
        match s.app.roundMessages s.rxBuffer s.txBuffer it.recvs with
        | (_, none) => .error ()
        | ((_, txBuffer), some (respPacket, rxBuffer, _)) =>
            .ok (⟨s.app, rxBuffer, txBuffer, false⟩, ⟨respPacket, loop.act respPacket⟩)

/-- The bytes an iteration receives. -/
def received (it : Iteration) : Bytes := (arrived App.bufferSize it.recvs).getD []

/-- What a cleared buffer would give. -/
def decodedAlone (bs : Bytes) : Mcc.Packet :=
  (parseFromArray (bs ++ List.replicate (App.bufferSize - bs.length) 0)).1

/-- The read of a response does not go on into what is left behind it: no field of the response
runs over it, and the read ends inside the response, or the next tag behind it is zero or that
of the end of a group, or nothing is left. -/
def Settled (s : LoopState) (it : Iteration) : Prop :=
  let bs := received it
  let stale := s.rxBuffer.drop bs.length
  Mcc.Packet.framed bs = true ∧
    (Closed Mcc.Packet bs ∨ (parse stale).1 = [] ∧ (parse stale).2 ≠ .malformed)

instance (s : LoopState) (it : Iteration) : Decidable (Settled s it) :=
  inferInstanceAs (Decidable (_ ∧ _))

/-! ## One iteration -/

variable {iter : Traversal Bytes UserId} {loop : Loop}

/-- What `receive` decodes: the bytes received and what was left behind them. -/
theorem eq_parse_of_receive {rxBuffer buf : Bytes} {it : Iteration} {p : Mcc.Packet}
    (h : App.receive rxBuffer it.recvs = some (p, buf)) :
    p = (parseFromArray (received it ++ rxBuffer.drop (received it).length)).1 := by
  obtain ⟨buf', hbuf, hp⟩ := Option.bind_eq_some_iff.mp h
  rw [receiveLoop_eq] at hbuf
  obtain ⟨bs, hbs, rfl⟩ := Option.map_eq_some_iff.mp hbuf
  rw [received, hbs]
  cases hp
  rfl

/-- An iteration comes about only where `receive` returns, and it acts upon the packet that
`receive` decodes. -/
theorem receive_of_step {s s' : LoopState} {it : Iteration} {d : Decoded}
    (h : step iter loop s it = .ok (s', d)) :
    (∃ buf, App.receive s.rxBuffer it.recvs = some (d.respPacket, buf)) ∧
      d.acted = loop.act d.respPacket := by
  have hrunning : s.finished = false := by
    cases hfinished : s.finished with
    | false => rfl
    | true => simp [step, hfinished] at h
  -- The three loops differ in what they send and in what they make of the packet.
  cases loop with
  | onlineUsers =>
      simp only [step, hrunning, Bool.false_eq_true, if_false, App.roundOnlineUsers] at h
      cases hr : App.receive s.rxBuffer it.recvs with
      | none => simp [hr] at h
      | some out =>
          simp only [hr, Option.map_some, Except.ok.injEq, Prod.mk.injEq] at h
          obtain ⟨-, rfl⟩ := h
          exact ⟨⟨out.2, rfl⟩, rfl⟩
  | chat targetUser =>
      simp only [step, hrunning, Bool.false_eq_true, if_false, App.roundChat] at h
      split_ifs at h
      cases hr : App.receive s.rxBuffer it.recvs with
      | none => simp [hr] at h
      | some out =>
          simp only [hr, Option.map_some, Except.ok.injEq, Prod.mk.injEq] at h
          obtain ⟨-, rfl⟩ := h
          exact ⟨⟨out.2, rfl⟩, rfl⟩
  | messages =>
      simp only [step, hrunning, Bool.false_eq_true, if_false, App.roundMessages] at h
      cases hr : App.receive s.rxBuffer it.recvs with
      | none => simp [hr] at h
      | some out =>
          simp only [hr, Option.map_some, Except.ok.injEq, Prod.mk.injEq] at h
          obtain ⟨-, rfl⟩ := h
          exact ⟨⟨out.2, rfl⟩, rfl⟩

/-- **What an iteration decodes**: the bytes it received and what was left behind them. -/
theorem step_eq_ok {s s' : LoopState} {it : Iteration} {d : Decoded}
    (h : step iter loop s it = .ok (s', d)) :
    d.respPacket
        = (parseFromArray (received it ++ s.rxBuffer.drop (received it).length)).1 ∧
      d.acted = loop.act d.respPacket := by
  obtain ⟨⟨buf, hreceive⟩, hacted⟩ := receive_of_step h
  exact ⟨eq_parse_of_receive hreceive, hacted⟩

/-- **A settled response is read as from a cleared buffer.** -/
theorem decodedAlone_of_settled {s s' : LoopState} {it : Iteration} {d : Decoded}
    (hsettled : Settled s it) (h : step iter loop s it = .ok (s', d)) :
    d.respPacket = decodedAlone (received it) := by
  obtain ⟨hframed, hends⟩ := hsettled
  rw [(step_eq_ok h).1, decodedAlone]
  by_cases hclosed : Closed Mcc.Packet (received it)
  · rw [hclosed.parse_append, hclosed.parse_append]
  · have hlimit : (parse (received it)).2 = .limit := limit_of_framed hframed hclosed
    have hnone := (hends.resolve_left hclosed).1
    rw [parse_append_of_no_field hlimit hnone, parse_append_of_no_field hlimit (parse_zeros _)]

/-! ## Runs -/

/-- In a run of settled responses every iteration decodes what its own bytes say. -/
theorem decodedAlone_of_along {s s' : LoopState} {its : List Iteration}
    {log : List (Entry LoopState Iteration Decoded)}
    (hrun : run (step iter loop) s its = .ok (s', log))
    (hsettled : Along (step iter loop) Settled s its) :
    ∀ e ∈ log, e.output.respPacket = decodedAlone (received e.input) ∧
      e.output.acted = loop.act (decodedAlone (received e.input)) := by
  intro e he
  obtain ⟨t, hstep⟩ := step_of_mem_log hrun he
  have hpacket := decodedAlone_of_settled ((along_iff hrun).mp hsettled e he) hstep
  exact ⟨hpacket, hpacket ▸ (step_eq_ok hstep).2⟩

/-- **Iterations that receive the same bytes decode and act upon the same**, in whatever runs
of settled responses and after whatever responses. -/
theorem settled_alike {s s' t t' : LoopState} {its its' : List Iteration}
    {log log' : List (Entry LoopState Iteration Decoded)}
    (hrun : run (step iter loop) s its = .ok (s', log))
    (hrun' : run (step iter loop) t its' = .ok (t', log'))
    (hsettled : Along (step iter loop) Settled s its)
    (hsettled' : Along (step iter loop) Settled t its') :
    ∀ e ∈ log, ∀ e' ∈ log', received e.input = received e'.input → e.output = e'.output := by
  intro e he e' he' hsame
  obtain ⟨hpacket, hacted⟩ := decodedAlone_of_along hrun hsettled e he
  obtain ⟨hpacket', hacted'⟩ := decodedAlone_of_along hrun' hsettled' e' he'
  calc e.output = ⟨e.output.respPacket, e.output.acted⟩ := rfl
    _ = ⟨e'.output.respPacket, e'.output.acted⟩ := by
        rw [hpacket, hacted, hpacket', hacted', hsame]

/-- A loop with cleared buffers. -/
def fresh : LoopState where
  app := {}
  rxBuffer := List.replicate App.bufferSize 0
  txBuffer := List.replicate App.bufferSize 0

/-- An iteration that receives a response with one message. -/
def oneMessage (id : UserId) (msg : Bytes) : Iteration where
  recvs := [.data (serialize
    ({ hdr := some { packetType := some .respRecv }
       respRecv := some
        { respValue := some 0
          messages := [{ userId := some id, message := some msg }] } } : Mcc.Packet))]

/-- Behind the shorter response the next byte left is zero. -/
theorem settled_alike_after_longer :
    ∃ s log s' log', run (step (.ascending _ _) .messages) fresh
        [oneMessage 5 [65, 0, 66], oneMessage 7 [67]] = .ok (s, log) ∧
      run (step (.ascending _ _) .messages) fresh [oneMessage 7 [67]] = .ok (s', log') ∧
      ∀ e ∈ log, ∀ e' ∈ log', received e.input = received e'.input → e.output = e'.output := by
  have hok : (run (step (.ascending _ _) .messages) fresh
      [oneMessage 5 [65, 0, 66], oneMessage 7 [67]]).map (fun _ => ()) = .ok () := by
    decide +kernel
  have hok' : (run (step (.ascending _ _) .messages) fresh [oneMessage 7 [67]]).map (fun _ => ())
      = .ok () := by
    decide +kernel
  obtain ⟨⟨s, log⟩, hrun, -⟩ := map_eq_ok.mp hok
  obtain ⟨⟨s', log'⟩, hrun', -⟩ := map_eq_ok.mp hok'
  exact ⟨s, log, s', log', hrun, hrun',
    settled_alike hrun hrun' (by decide +kernel) (by decide +kernel)⟩

/-- The text of a message holds the bytes of a further Recv response, and they lie behind the
next response: a message "h" from user 3 that nobody sent is shown. -/
theorem not_alike_after_longer :
    let its := [oneMessage 5 ([65] ++ [0x4A, 7, 0x12, 5, 8, 3, 0x12, 1, 104]), oneMessage 7 [66]]
    let its' := [oneMessage 7 [66], oneMessage 7 [66]]
    ∃ s log s' log', run (step (.ascending _ _) .messages) fresh its = .ok (s, log) ∧
      run (step (.ascending _ _) .messages) fresh its' = .ok (s', log') ∧
      ¬∀ e ∈ log, ∀ e' ∈ log', received e.input = received e'.input → e.output = e'.output := by
  intro its its'
  have heval : (run (step (.ascending _ _) .messages) fresh its).map (fun out =>
      (run (step (.ascending _ _) .messages) fresh its').map (fun out' =>
        out.2.all fun e => out'.2.all fun e' =>
          decide (received e.input = received e'.input → e.output = e'.output)))
      = .ok (.ok false) := by decide +kernel
  obtain ⟨⟨s, log⟩, hrun, h⟩ := map_eq_ok.mp heval
  obtain ⟨⟨s', log'⟩, hrun', hsome⟩ := map_eq_ok.mp h
  refine ⟨s, log, s', log', hrun, hrun', fun halike => ?_⟩
  have hall : (log.all fun e => log'.all fun e' =>
      decide (received e.input = received e'.input → e.output = e'.output)) = true :=
    List.all_eq_true.mpr fun e he => List.all_eq_true.mpr fun e' he' =>
      decide_eq_true (halike e he e' he')
  rw [hall] at hsome
  cases hsome

end LoopState

end ChatApp
