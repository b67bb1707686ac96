import ChatApp.Client.Dialogue
import ChatApp.Lib.Simulation
import ChatApp.Protobuf.Addressing

set_option autoImplicit false

/-! # The dialogue and its sessions

A session knows lines, where the dialogue knows keys and a console, and it knows nothing of the
menu. Every run of the dialogue is a run of a session: on the lines that are typed at the prompt
for a name and in a chat, on the responses to the poll for online users and on those to the
lines of a chat. It sends the same requests in the same order (`session_of_run`), so what holds
of the sessions holds of the dialogue.
-/

namespace ChatApp

open Lib

namespace Dialogue

/-- The phase a session sees the thread in. -/
def phaseOf : MainThread → Phase
  | .getUserCommand => .prompt
  | .askTargetUser => .prompt
  | .chatting targetUser => .chatting targetUser
  | .waiting targetUser => .waiting targetUser

/-- What a step is for the session: a line, but for those typed at the menu, or a response. -/
def sessionEvent (e : Entry Dialogue DialogueEvent Shown) : Option SessionEvent :=
  match e.input with
  | .typed _ => if e.before.thread = .getUserCommand then none else (lineOf e).map .typed
  | .polledUsers respPacket => some (.polled respPacket)
  | .polledMessages _ => none
  | .responded respPacket => some (.responded respPacket)

/-- A session that is where the dialogue is. -/
structure SeenAs (d : Dialogue) (s : Session) : Prop where
  app : s.app = d.app
  phase : s.phase = phaseOf d.thread

/-- A step and the step of the session that it is. -/
structure SendsSame (e : Entry Dialogue DialogueEvent Shown)
    (e' : Entry Session SessionEvent (Option ChatLine)) : Prop where
  before : SeenAs e.before e'.before
  request : e.output.request = e'.output.map ChatLine.reqPacket

variable {iter : Traversal Bytes UserId} {d d' : Dialogue} {out : Shown} {s : Session}

/-! ## One step -/

/-- The session does not notice a line typed at the menu. -/
theorem SeenAs.menu (h : SeenAs d s) (line : Bytes) (hmenu : d.thread = .getUserCommand) :
    SeenAs (d.resume iter line).1 s := by
  have hphase : s.phase = .prompt := by rw [h.phase, hmenu, phaseOf]
  unfold Dialogue.resume
  rw [hmenu]
  dsimp only
  split <;> exact ⟨h.app, hphase⟩

/-- **The step on a line**, anywhere but at the menu. -/
theorem SeenAs.resume (iter : Traversal Bytes UserId) (h : SeenAs d s) (line : Bytes)
    (hmenu : d.thread ≠ .getUserCommand) (hwait : ∀ targetUser, d.thread ≠ .waiting targetUser) :
    SeenAs (d.resume iter line).1 (s.next iter (.typed line)).1 ∧
      (d.resume iter line).2.request
        = (s.next iter (.typed line)).2.map ChatLine.reqPacket := by
  rcases hthread : d.thread with _ | _ | targetUser | targetUser
  · exact absurd hthread hmenu
  · have hphase : s.phase = .prompt := by rw [h.phase, hthread, phaseOf]
    simp only [Dialogue.resume, hthread, Session.next, hphase, h.app]
    by_cases hx : line = text "x"
    · have htarget : d.app.targetOf line = .ok none := if_pos hx
      rw [htarget, if_neg (fun hchat => hchat.1 hx)]
      exact ⟨⟨h.app, hphase⟩, rfl⟩
    · by_cases honline : d.app.isOnline line = true
      · have htarget : d.app.targetOf line = .ok (some line) := by
          rw [App.targetOf, if_neg hx, if_neg (by simp [honline])]
        rw [htarget, if_pos ⟨hx, honline⟩]
        exact ⟨⟨rfl, rfl⟩, rfl⟩
      · have htarget : d.app.targetOf line = .error (text "Error,  user not available") := by
          rw [App.targetOf, if_neg hx, if_pos (by simp [honline])]
        rw [htarget, if_neg (fun hchat => honline hchat.2)]
        exact ⟨⟨h.app, hphase⟩, rfl⟩
  · have hphase : s.phase = .chatting targetUser := by rw [h.phase, hthread, phaseOf]
    by_cases hx : line = text "x"
    · simp only [Dialogue.resume, hthread, Session.next, hphase, if_pos hx]
      exact ⟨⟨h.app, rfl⟩, rfl⟩
    · rw [Session.next_typed_of_chatting hphase hx, h.app]
      simp only [Dialogue.resume, hthread, if_neg hx]
      exact ⟨⟨rfl, rfl⟩, rfl⟩
  · exact absurd hthread (hwait targetUser)

/-- The end of a wait. -/
theorem SeenAs.responded (h : SeenAs d s) {respPacket : Mcc.Packet}
    (hstep : d.step iter (.responded respPacket) = .ok (d', out)) :
    SeenAs d' (s.next iter (.responded respPacket)).1 ∧
      out.request = (s.next iter (.responded respPacket)).2.map ChatLine.reqPacket := by
  obtain ⟨targetUser, hthread, heq⟩ := step_responded hstep
  have hphase : s.phase = .waiting targetUser := by rw [h.phase, hthread, phaseOf]
  simp only [Session.next, hphase]
  split_ifs at heq ⊢
  · obtain ⟨rfl, rfl⟩ := Prod.mk.inj heq
    exact ⟨⟨h.app, rfl⟩, rfl⟩
  · obtain ⟨rfl, rfl⟩ := Prod.mk.inj heq
    exact ⟨⟨h.app, rfl⟩, rfl⟩

/-- A step that is none of the session's. -/
theorem SeenAs.stay (h : SeenAs d s) {event : DialogueEvent}
    (hnone : sessionEvent ⟨d, event, out⟩ = none) (hstep : d.step iter event = .ok (d', out)) :
    SeenAs d' s := by
  cases event with
  | typed key =>
      by_cases hkey : key = 0x0A
      · subst hkey
        have hmenu : d.thread = .getUserCommand := by
          by_contra hmenu
          simp [sessionEvent, lineOf, hmenu] at hnone
        obtain ⟨hresume, -⟩ := step_newline hstep
        have hseen : SeenAs ({ d with console := {} } : Dialogue) s := ⟨h.app, h.phase⟩
        have hfst := congrArg Prod.fst hresume
        exact (show _ = d' from hfst) ▸ hseen.menu d.console.userInput hmenu
      · obtain ⟨c, rfl, -, -⟩ := step_key hkey hstep
        exact ⟨h.app, h.phase⟩
  | polledUsers respPacket => cases hnone
  | polledMessages respPacket =>
      obtain ⟨rfl, -⟩ := Prod.mk.inj (Except.ok.inj hstep)
      exact h
  | responded respPacket => cases hnone

/-- **A step that is one of the session's.** -/
theorem SeenAs.move (h : SeenAs d s) {event : DialogueEvent} {event' : SessionEvent}
    (hsome : sessionEvent ⟨d, event, out⟩ = some event')
    (hstep : d.step iter event = .ok (d', out)) :
    SeenAs d' (s.next iter event').1 ∧
      out.request = (s.next iter event').2.map ChatLine.reqPacket := by
  cases event with
  | typed key =>
      by_cases hmenu : d.thread = .getUserCommand
      · simp [sessionEvent, hmenu] at hsome
      · rw [sessionEvent] at hsome
        dsimp only at hsome
        rw [if_neg hmenu, Option.map_eq_some_iff] at hsome
        obtain ⟨line, hline, rfl⟩ := hsome
        rw [lineOf] at hline
        split_ifs at hline with hkey
        obtain rfl : key = 0x0A := DialogueEvent.typed.inj hkey
        obtain rfl : d.console.userInput = line := Option.some.inj hline
        obtain ⟨hresume, hwait⟩ := step_newline hstep
        have hseen : SeenAs ({ d with console := {} } : Dialogue) s := ⟨h.app, h.phase⟩
        have hmove := SeenAs.resume iter hseen d.console.userInput hmenu hwait
        rwa [hresume] at hmove
  | polledUsers respPacket =>
      obtain rfl := Option.some.inj hsome
      obtain ⟨rfl, rfl⟩ := Prod.mk.inj (Except.ok.inj hstep)
      refine ⟨⟨?_, h.phase⟩, rfl⟩
      show (s.app.updateOnlineUsers iter respPacket).1 = (d.app.updateOnlineUsers iter respPacket).1
      rw [h.app]
  | polledMessages respPacket => cases hsome
  | responded respPacket =>
      obtain rfl := Option.some.inj hsome
      exact h.responded hstep

/-! ## Runs -/

/-- Nothing is sent in a step that is none of the session's. -/
theorem request_of_none {event : DialogueEvent} (hnone : sessionEvent ⟨d, event, out⟩ = none)
    (hstep : d.step iter event = .ok (d', out)) : out.request = none := by
  rcases hrequest : out.request with _ | reqPacket
  · rfl
  · obtain ⟨rfl, targetUser, hthread, -, -⟩ := step_request hstep hrequest
    simp [sessionEvent, lineOf, hthread] at hnone

/-- **The dialogue is a session.** Every run of the dialogue after the registration is a run of
a session: the map and the phase are the session's at the end, and the requests sent are the
session's, in its order. -/
theorem session_of_run {username : Bytes} {id : UserId} {events : List DialogueEvent}
    {log : List (Entry Dialogue DialogueEvent Shown)}
    (hrun : run (step iter) (start username id) events = .ok (d, log)) :
    ∃ s log', run (Session.step iter) (Session.start username id) (log.filterMap sessionEvent)
        = .ok (s, log') ∧ SeenAs d s ∧
      log.filterMap (·.output.request)
        = log'.filterMap fun e => e.output.map ChatLine.reqPacket := by
  obtain ⟨s, log', hrun', hseen, hlog⟩ :=
    run_simulation_entries (p := fun _ _ => True) (Session.step iter) sessionEvent
      (fun d s _ => SeenAs d s) SendsSame
      (fun _ _ _ _ _ _ hseen _ hstep hnone => hseen.stay hnone hstep)
      (fun _ s _ _ _ _ event' hseen _ hstep hsome =>
        ⟨_, _, rfl, (hseen.move hsome hstep).1, hseen, (hseen.move hsome hstep).2⟩)
      (⟨rfl, rfl⟩ : SeenAs (start username id) (Session.start username id))
      ((along_iff hrun).mpr fun _ _ => trivial) hrun
  refine ⟨s, log', hrun', hseen, ?_⟩
  refine filterMap_eq_of_forall₂ (hlog.imp fun e e' hsame => hsame.request) fun e he hnone => ?_
  obtain ⟨d', hstep⟩ := step_of_mem_log hrun he
  exact request_of_none hnone hstep

/-- A chat is opened, its user goes offline, and a line is typed. -/
theorem session_of_run_one_line :
    let keys : Bytes → List DialogueEvent := List.map .typed
    let events := keys [0x32, 0x0A] ++ [.polledUsers (Session.listsOne 5 [0x42])]
      ++ keys [0x42, 0x0A] ++ [.polledUsers { respUsers := some { respValue := some 0 } }]
      ++ keys [0x68, 0x0A]
    ∃ d log, run (step (.ascending _ _)) (start [0x41] 7) events = .ok (d, log) ∧
      log.filterMap (·.output.request) = [App.sendRequest 7 0 [0x68]] ∧
      ∃ s log', run (Session.step (.ascending _ _)) (Session.start [0x41] 7)
          (log.filterMap sessionEvent) = .ok (s, log') ∧ SeenAs d s ∧
        log.filterMap (·.output.request)
          = log'.filterMap fun e => e.output.map ChatLine.reqPacket := by
  intro keys events
  have hok : (run (step (.ascending _ _)) (start [0x41] 7) events).map
      (fun out => out.2.filterMap (·.output.request))
      = .ok [App.sendRequest 7 0 [0x68]] := by decide +kernel
  obtain ⟨⟨d, log⟩, hrun, hrequests⟩ := map_eq_ok.mp hok
  exact ⟨d, log, hrun, hrequests, session_of_run hrun⟩

end Dialogue

end ChatApp
