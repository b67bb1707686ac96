import ChatApp.Client.Directory
import ChatApp.Lib.Run

set_option autoImplicit false

/-! # Who the lines of a chat are addressed to

A chat is opened under a name the application has an id for. The id is looked up again for
every line, in a map that the poll for online users replaces as a whole in between, and
through the subscript: a name that has gone from the map is entered with the id 0, and the
line goes to user 0, whoever that is.

So every line goes to an id that was listed under the name exactly if the name is in the map
at every line, or was listed under the id 0 before (`Session.addressed_iff`).
-/

namespace ChatApp

open Lib Lib.Wire

/-- Where the thread that reads the console is: at the prompt for a name, in a chat, or in a
chat and waiting for the response to a line. -/
inductive Phase
  | prompt
  | chatting (targetUser : Bytes)
  | waiting (targetUser : Bytes)
  deriving Repr, DecidableEq

/-- The application as the two threads share it, and the responses to the poll so far, which
only the statements look at. -/
structure Session where
  app : App
  phase : Phase := .prompt
  polled : List Mcc.Packet := []
  deriving DecidableEq

/-- What happens next: the poll has a response, a line is read from the console, or the
response to a line of a chat arrives. -/
inductive SessionEvent
  | polled (respPacket : Mcc.Packet)
  | typed (line : Bytes)
  | responded (respPacket : Mcc.Packet)
  deriving Repr, DecidableEq

/-- A Send request, with the name the chat was opened under. -/
structure ChatLine where
  targetUser : Bytes
  reqPacket : Mcc.Packet
  deriving Repr, DecidableEq

namespace Session

/-- One section under the lock, and what the thread does around it. At the prompt and in a
chat the line `x` leads back to the menu; a line is not read while a response is awaited. -/
def next (iter : Traversal Bytes UserId) (s : Session) :
    SessionEvent → Session × Option ChatLine
  | .polled respPacket =>
      ({ s with app := (s.app.updateOnlineUsers iter respPacket).1
                polled := s.polled ++ [respPacket] }, none)
  | .typed line =>
      match s.phase with
      | .prompt =>
          if line ≠ text "x" ∧ s.app.isOnline line then
            ({ s with phase := .chatting line }, none)
          else (s, none)
      | .chatting targetUser =>
          if line = text "x" then ({ s with phase := .prompt }, none)
          else
            let (reqPacket, app) := s.app.chatRequest targetUser line
            ({ s with app := app, phase := .waiting targetUser }, some ⟨targetUser, reqPacket⟩)
      | .waiting _ => (s, none)
  | .responded respPacket =>
      match s.phase with
      | .waiting targetUser =>
          if (App.chatVerdict respPacket).1 then ({ s with phase := .chatting targetUser }, none)
          else ({ s with phase := .prompt }, none)
      | _ => (s, none)

/-- `next` as a step that cannot fail. -/
def step (iter : Traversal Bytes UserId) (s : Session) (event : SessionEvent) :
    Except Empty (Session × Option ChatLine) :=
  .ok (s.next iter event)

/-- A positive response to the poll lists the id under the name. -/
def Listed (polled : List Mcc.Packet) (id : UserId) (name : Bytes) : Prop :=
  ∃ respPacket ∈ polled, ((respPacket.respUsers.getD {}).respValue).getD 0 = 0 ∧
    ∃ user ∈ (respPacket.respUsers.getD {}).onlineUsers,
      user.username.getD [] = name ∧ user.userId.getD 0 = id

instance (polled : List Mcc.Packet) (id : UserId) (name : Bytes) :
    Decidable (Listed polled id name) :=
  inferInstanceAs (Decidable (∃ respPacket ∈ polled, _ ∧ ∃ user ∈ _, _ ∧ _))

/-- A request that was built goes to an id listed under the name the chat was opened under. -/
def Addressed (polled : List Mcc.Packet) (line : Option ChatLine) : Prop :=
  ∀ l ∈ line, ∃ id ∈ l.reqPacket.reqSend.bind (·.targetId), Listed polled id l.targetUser

instance (polled : List Mcc.Packet) (line : Option ChatLine) : Decidable (Addressed polled line) :=
  inferInstanceAs (Decidable (∀ l ∈ line, ∃ id ∈ _, _))

/-- A line of a chat finds the name in the map, or it was listed under the id 0. -/
def Present (s : Session) : SessionEvent → Prop
  | .typed line => ∀ targetUser, s.phase = .chatting targetUser → line ≠ text "x" →
      s.app.isOnline targetUser = true ∨ Listed s.polled 0 targetUser
  | _ => True

instance (s : Session) (event : SessionEvent) : Decidable (Present s event) :=
  match event with
  | .polled _ => .isTrue trivial
  | .responded _ => .isTrue trivial
  | .typed line =>
      match h : s.phase with
      | .prompt => .isTrue (by simp [Present, h])
      | .waiting _ => .isTrue (by simp [Present, h])
      | .chatting targetUser =>
          decidable_of_iff (line ≠ text "x" →
            s.app.isOnline targetUser = true ∨ Listed s.polled 0 targetUser)
            (by simp [Present, h])

/-! ## The map and the responses -/

/-- Every entry of the map was listed. -/
def EntriesListed (s : Session) : Prop :=
  ∀ name id, s.app.nameToId[name]? = some id → Listed s.polled id name

theorem Listed.append {polled : List Mcc.Packet} {id : UserId} {name : Bytes}
    (h : Listed polled id name) (more : List Mcc.Packet) : Listed (polled ++ more) id name := by
  obtain ⟨respPacket, hmem, hlists⟩ := h
  exact ⟨respPacket, List.mem_append_left more hmem, hlists⟩

/-- The map a positive response describes holds what it lists. -/
theorem listed_of_newNameToId {respPacket : Mcc.Packet} {name : Bytes} {id : UserId}
    (hpositive : Positive respPacket)
    (h : (App.newNameToId respPacket)[name]? = some id) (polled : List Mcc.Packet) :
    Listed (polled ++ [respPacket]) id name := by
  have hlists : Lists respPacket name id := lists_of_newNameToId h
  exact ⟨respPacket, List.mem_append_right polled List.mem_cons_self, hpositive, hlists⟩

/-! ## One step -/

variable {iter : Traversal Bytes UserId}

/-- A request is built for a line of a chat, and for nothing else. -/
theorem next_snd_eq_some {s : Session} {event : SessionEvent} {l : ChatLine}
    (h : (s.next iter event).2 = some l) :
    ∃ line, event = .typed line ∧ s.phase = .chatting l.targetUser ∧ line ≠ text "x" ∧
      l.reqPacket = (s.app.chatRequest l.targetUser line).1 := by
  cases event with
  | polled respPacket => cases h
  | typed line =>
      cases hphase : s.phase with
      | prompt =>
          simp only [next, hphase] at h
          split_ifs at h
      -- The only branch that builds a request.
      | chatting targetUser =>
          simp only [next, hphase] at h
          split_ifs at h with hx
          cases h
          exact ⟨line, rfl, rfl, hx, rfl⟩
      | waiting targetUser =>
          simp only [next, hphase] at h
          cases h
  | responded respPacket =>
      cases hphase : s.phase with
      | prompt => simp only [next, hphase] at h; cases h
      | chatting targetUser => simp only [next, hphase] at h; cases h
      | waiting targetUser =>
          simp only [next, hphase] at h
          split_ifs at h

/-- What is built for a line of a chat. -/
theorem next_typed_of_chatting {s : Session} {line targetUser : Bytes}
    (hphase : s.phase = .chatting targetUser) (hx : line ≠ text "x") :
    s.next iter (.typed line)
      = ({ s with app := (s.app.chatRequest targetUser line).2, phase := .waiting targetUser },
          some ⟨targetUser, (s.app.chatRequest targetUser line).1⟩) := by
  simp only [next, hphase, if_neg hx]

/-- A line that goes where it should finds the name, or goes to a listed id 0. -/
theorem present_of_addressed {s : Session} {event : SessionEvent}
    (h : Addressed s.polled (s.next iter event).2) : Present s event := by
  cases event with
  | typed line =>
      intro targetUser hphase hx
      rw [next_typed_of_chatting hphase hx] at h
      obtain ⟨id, hid, hlisted⟩ := h _ rfl
      rw [App.chatRequest_targetId, Option.mem_some_iff] at hid
      cases hmap : s.app.nameToId[targetUser]? with
      | none =>
          rw [hmap, Option.getD_none] at hid
          subst hid
          exact .inr hlisted
      | some id' => exact .inl (by rw [App.isOnline, hmap]; rfl)
  | polled respPacket => trivial
  | responded respPacket => trivial

/-- The id a line goes to was listed, if the name was found or listed under 0. -/
theorem listed_targetId {s : Session} (hentries : EntriesListed s) {targetUser : Bytes}
    (h : s.app.isOnline targetUser = true ∨ Listed s.polled 0 targetUser) :
    Listed s.polled (s.app.nameToId[targetUser]?.getD 0) targetUser := by
  cases hmap : s.app.nameToId[targetUser]? with
  | some id => exact hentries targetUser id hmap
  | none =>
      rcases h with honline | hzero
      · rw [App.isOnline, hmap] at honline
        cases honline
      · exact hzero

theorem addressed_of_present {s : Session} {event : SessionEvent} (hentries : EntriesListed s)
    (h : Present s event) : Addressed s.polled (s.next iter event).2 := by
  intro l hl
  obtain ⟨line, rfl, hphase, hx, hreq⟩ := next_snd_eq_some hl
  refine ⟨_, ?_, listed_targetId hentries (h l.targetUser hphase hx)⟩
  rw [hreq, App.chatRequest_targetId, Option.mem_some_iff]

/-- **The step lemma**: the poll and a line that is present keep every entry listed. -/
theorem entriesListed_next {s : Session} {event : SessionEvent} (hentries : EntriesListed s)
    (h : Present s event) : EntriesListed (s.next iter event).1 := by
  cases event with
  | polled respPacket =>
      intro name id hmap
      rcases App.updateOnlineUsers_cases iter s.app respPacket with hsame | ⟨hpositive, hnew⟩
      · have hold : (s.app.updateOnlineUsers iter respPacket).1.nameToId[name]? = some id := hmap
        rw [hsame] at hold
        exact (hentries name id hold).append [respPacket]
      · have hfresh : (s.app.updateOnlineUsers iter respPacket).1.nameToId[name]? = some id := hmap
        rw [hnew] at hfresh
        exact listed_of_newNameToId hpositive hfresh s.polled
  | typed line =>
      cases hphase : s.phase with
      | prompt =>
          simp only [next, hphase]
          split_ifs
          · exact hentries
          · exact hentries
      | chatting targetUser =>
          by_cases hx : line = text "x"
          · simp only [next, hphase, if_pos hx]
            exact hentries
          · -- The one entry that may be new is the one the line goes to.
            rw [next_typed_of_chatting hphase hx]
            intro name id hmap
            have hlookup : (s.app.nameToId.insert targetUser
                (s.app.nameToId[targetUser]?.getD 0))[name]? = some id := hmap
            rw [UnorderedMap.getElem?_insert_eq] at hlookup
            split_ifs at hlookup with hname
            · subst hname
              rw [← Option.some.inj hlookup]
              exact listed_targetId hentries (h targetUser hphase hx)
            · exact hentries name id hlookup
      | waiting targetUser =>
          simp only [next, hphase]
          exact hentries
  | responded respPacket =>
      cases hphase : s.phase with
      | prompt => simp only [next, hphase]; exact hentries
      | chatting targetUser => simp only [next, hphase]; exact hentries
      | waiting targetUser =>
          simp only [next, hphase]
          split_ifs
          · exact hentries
          · exact hentries

/-! ## Runs -/

/-- The application before the first poll. -/
def start (username : Bytes) (id : UserId) : Session where
  app := { username := username, id := id }

/-- **Over a run every line goes to an id that was listed under the name of the chat exactly
if every line finds the name in the map, or listed under the id 0.** -/
theorem addressed_iff {username : Bytes} {id : UserId} {events : List SessionEvent} {s : Session}
    {log : List (Entry Session SessionEvent (Option ChatLine))}
    (hrun : run (step iter) (start username id) events = .ok (s, log)) :
    (∀ e ∈ log, Addressed e.before.polled e.output) ↔ ∀ e ∈ log, Present e.before e.input := by
  constructor
  · intro h e he
    obtain ⟨t, hstep⟩ := step_of_mem_log hrun he
    have houtput : (e.before.next iter e.input).2 = e.output :=
      congrArg Prod.snd (Except.ok.inj hstep)
    have haddressed : Addressed e.before.polled (e.before.next iter e.input).2 := by
      rw [houtput]
      exact h e he
    exact present_of_addressed haddressed
  · intro h
    -- The invariant holds of the empty map, and the run carries it to every line.
    have hstart : EntriesListed (start username id) := by
      intro name id' hmap
      simp [start] at hmap
    refine (run_induction_of_ok (p := Present)
      (I := fun s log _ => EntriesListed s ∧ ∀ e ∈ log, Addressed e.before.polled e.output)
      ?_ ⟨hstart, List.forall_mem_nil _⟩ ((along_iff hrun).mpr h) hrun).2
    rintro s log event events s' line ⟨hentries, hlog⟩ hpresent hstep
    have hnext : s.next iter event = (s', line) := Except.ok.inj hstep
    constructor
    · have hkept : EntriesListed (s.next iter event).1 := entriesListed_next hentries hpresent
      rwa [hnext] at hkept
    · refine forall_mem_concat hlog ?_
      have haddressed : Addressed s.polled (s.next iter event).2 :=
        addressed_of_present hentries hpresent
      rwa [hnext] at haddressed

/-- A response to the poll that lists one user. -/
def listsOne (id : UserId) (name : Bytes) : Mcc.Packet where
  respUsers := some
    { respValue := some 0, onlineUsers := [{ userId := some id, username := some name }] }

theorem addressed_two_lines :
    let events := [SessionEvent.polled (listsOne 5 [66]), .typed [66], .typed [104],
      .responded { respSend := some { respValue := some 0 } }, .polled (listsOne 6 [66]),
      .typed [105]]
    ∃ s log, run (step (.ascending _ _)) (start [65] 0) events = .ok (s, log) ∧
      ∀ e ∈ log, Addressed e.before.polled e.output := by
  intro events
  have hok : (run (step (.ascending _ _)) (start [65] 0) events).map (fun _ => ()) = .ok () := rfl
  obtain ⟨⟨s, log⟩, hrun, -⟩ := map_eq_ok.mp hok
  have hpresent : Along (step (.ascending _ _)) Present (start [65] 0) events := by
    decide +kernel
  exact ⟨s, log, hrun, (addressed_iff hrun).mpr ((along_iff hrun).mp hpresent)⟩

/-- User 5 is listed as B, a chat with B is opened, the server restarts, and the line goes to
user 0. -/
theorem not_addressed_after_restart :
    let events := [SessionEvent.polled (listsOne 5 [66]), .typed [66],
      .polled { respUsers := some { respValue := some 0 } }, .typed [104]]
    ∃ s log, run (step (.ascending _ _)) (start [65] 0) events = .ok (s, log) ∧
      ¬∀ e ∈ log, Addressed e.before.polled e.output := by
  intro events
  have heval : (run (step (.ascending _ _)) (start [65] 0) events).map
      (fun out => out.2.all fun e => decide (Addressed e.before.polled e.output))
      = .ok false := by decide +kernel
  obtain ⟨⟨s, log⟩, hrun, hsome⟩ := map_eq_ok.mp heval
  refine ⟨s, log, hrun, fun haddressed => ?_⟩
  have hall : (log.all fun e => decide (Addressed e.before.polled e.output)) = true :=
    List.all_eq_true.mpr fun e he => decide_eq_true (haddressed e he)
  rw [hall] at hsome
  cases hsome

end Session

end ChatApp
