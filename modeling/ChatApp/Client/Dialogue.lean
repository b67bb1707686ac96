import ChatApp.Client.Prompts
import ChatApp.Lib.Run
import ChatApp.Protobuf.Exchanges

set_option autoImplicit false

/-! # The dialogue with the user (`client/app.cpp`)

`App::run` after the registration, key by key. The main thread is in a read of the console, or
waits for the response to a line of a chat; the two polls change the maps and write to the
console in between. A read gets one key at a time, and the thread goes on when it has a line.

A chat has a transmit buffer for all its lines. What the thread sends from it comes from what is
typed and from nothing else, whatever the polls do meanwhile: a line that fits the buffer is sent
whole, a longer one is not written to it, and the send reads on behind the buffer. The messages
that a server reads are lines of the keys typed, as edited, in the order in which they were typed
and each at most once (`requests_of_run`).
-/

namespace ChatApp

open Lib Lib.Wire Lib.Wire.Message

/-- Where the main thread is: at one of the three prompts, or waiting for a response. -/
inductive MainThread
  | getUserCommand
  | askTargetUser
  | chatting (targetUser : Bytes)
  | waiting (targetUser : Bytes)
  deriving Repr, DecidableEq

/-- The buffer is the one of the last chat. -/
structure Dialogue where
  app : App
  console : Console := {}
  thread : MainThread := .getUserCommand
  txBuffer : Bytes := []
  deriving DecidableEq

/-- What happens next: `getchar` returns a key to the read under way, one of the polls has a
response, or the response to a line of a chat arrives. -/
inductive DialogueEvent
  | typed (key : UInt8)
  | polledUsers (respPacket : Mcc.Packet)
  | polledMessages (respPacket : Mcc.Packet)
  | responded (respPacket : Mcc.Packet)
  deriving Repr, DecidableEq

/-- The packet that is built for a line of a chat, what `sendB` then sends, and the lines handed
to `Console::write`. -/
structure Shown where
  request : Option Mcc.Packet := none
  sent : Option (Except Fault Bytes) := none
  written : List Bytes := []

/-- What `getUserCommand` begins with. -/
def App.instructions (app : App) : List Bytes :=
  [text "Hi " ++ app.username ++ text "! Follow the instructions below:",
    text "Type \"1\" for viewing online users", text "Type \"2\" to chat with a user"]

namespace Dialogue

/-- The prompt of the read that the thread is in. -/
def promptOf : MainThread → Bytes
  | .getUserCommand => text "Enter your choice >"
  | .askTargetUser => text "Enter the name of the user you would like to chat with: "
  | .chatting targetUser => text "Send message to " ++ targetUser ++ text ">"
  | .waiting _ => []

/-- The thread goes into a read. -/
def read (d : Dialogue) (thread : MainThread) : Dialogue :=
  { d with console := (d.console.readPrompt (promptOf thread)).1, thread := thread }

/-- The thread goes back to the loop of `run`, and into `getUserCommand`. -/
def loop (d : Dialogue) (written : List Bytes) : Dialogue × Shown :=
  (d.read .getUserCommand, { written := written ++ d.app.instructions })

/-- What the thread does with the line that its read returns. -/
def resume (iter : Traversal Bytes UserId) (d : Dialogue) (line : Bytes) : Dialogue × Shown :=
  match d.thread with
  | .getUserCommand =>
      match App.commandOf line with
      | .error complaint => (d.read .getUserCommand, { written := [complaint] })
      | .ok .kDisplayOnlineUsers => d.loop (d.app.printOnlineUsers iter)
      | .ok .kChatWithUser => (d.read .askTargetUser, {})
  | .askTargetUser =>
      match d.app.targetOf line with
      | .error complaint => (d.read .askTargetUser, { written := [complaint] })
      | .ok none => d.loop []
      | .ok (some targetUser) =>
          (({ d with txBuffer := List.replicate App.bufferSize 0 }).read (.chatting targetUser), {})
  | .chatting targetUser =>
      if line = text "x" then d.loop []
      else
        let (reqPacket, app) := d.app.chatRequest targetUser line
        let (sent, txBuffer) := App.transmit reqPacket d.txBuffer
        ({ d with app := app, thread := .waiting targetUser, txBuffer := txBuffer },
          { request := some reqPacket, sent := some sent })
  | .waiting _ => (d, {})

/-- One step. A key is taken by a read only, and a response is looked at by a thread that waits
for it. -/
def step (iter : Traversal Bytes UserId) (d : Dialogue) :
    DialogueEvent → Except Unit (Dialogue × Shown)
  | .typed key =>
      match d.thread with
      | .waiting _ => .error ()
      | _ =>
          match d.console.readChar key.toNat with
          | (console, _, none) => .ok ({ d with console := console }, {})
          | (console, _, some line) => .ok (({ d with console := console }).resume iter line)
  | .polledUsers respPacket =>
      let (app, written) := d.app.updateOnlineUsers iter respPacket
      .ok ({ d with app := app }, { written := written })
  | .polledMessages respPacket => .ok (d, { written := d.app.showMessages respPacket })
  | .responded respPacket =>
      match d.thread with
      | .waiting targetUser =>
          let (goesOn, written) := App.chatVerdict respPacket
          if goesOn then .ok (d.read (.chatting targetUser), { written := written })
          else .ok (d.loop written)
      | _ => .error ()

/-- After the registration. -/
def start (username : Bytes) (id : UserId) : Dialogue :=
  (Dialogue.loop { app := { username := username, id := id } } []).1

/-! ## What is typed -/

/-- The line that a step hands to the thread. -/
def lineOf (e : Entry Dialogue DialogueEvent Shown) : Option Bytes :=
  if e.input = .typed 0x0A then some e.before.console.userInput else none

variable {iter : Traversal Bytes UserId} {d d' : Dialogue} {out : Shown}

@[simp] theorem userInput_read (d : Dialogue) (thread : MainThread) :
    (d.read thread).console.userInput = d.console.userInput := rfl

@[simp] theorem userInput_loop (d : Dialogue) (written : List Bytes) :
    (d.loop written).1.console.userInput = d.console.userInput := rfl

/-- What a read does with a key that is not the newline. -/
theorem readChar_key (c : Console) {key : UInt8} (hkey : key ≠ 0x0A) :
    ∃ c' echo, c.readChar key.toNat = (c', echo, none) ∧
      ∀ pending, c.userInput = edit pending → c'.userInput = edit (pending ++ [key]) := by
  have hread := c.readChar_toNat key
  rw [if_neg hkey] at hread
  by_cases hdel : key = 0x7F
  · rw [if_pos hdel] at hread
    split_ifs at hread with hnil
    · refine ⟨_, _, hread, fun pending hinput => ?_⟩
      rw [hdel, edit_del, ← hinput, hnil]
      rfl
    · refine ⟨_, _, hread, fun pending hinput => ?_⟩
      rw [hdel, edit_del, ← hinput]
  · rw [if_neg hdel] at hread
    refine ⟨_, _, hread, fun pending hinput => ?_⟩
    rw [edit_char pending hdel, ← hinput]

/-- A key that is not the newline is edited into what is typed, and nothing else happens. -/
theorem step_key {key : UInt8} (hkey : key ≠ 0x0A)
    (hstep : d.step iter (.typed key) = .ok (d', out)) :
    ∃ c, d' = { d with console := c } ∧ out = {} ∧
      ∀ pending, d.console.userInput = edit pending → c.userInput = edit (pending ++ [key]) := by
  obtain ⟨c, echo, hread, hedit⟩ := readChar_key d.console hkey
  unfold step at hstep
  dsimp only at hstep
  rw [hread] at hstep
  split at hstep
  · cases hstep
  · obtain ⟨rfl, rfl⟩ := Prod.mk.inj (Except.ok.inj hstep)
    exact ⟨c, rfl, rfl, hedit⟩

/-- At a newline the thread goes on with the line, and nothing is typed any more. -/
theorem step_newline (hstep : d.step iter (.typed 0x0A) = .ok (d', out)) :
    (({ d with console := {} } : Dialogue).resume iter d.console.userInput) = (d', out) ∧
      ∀ targetUser, d.thread ≠ .waiting targetUser := by
  have hread : d.console.readChar (0x0A : UInt8).toNat = ({}, [0x0A], some d.console.userInput) :=
    d.console.readChar_toNat 0x0A
  unfold step at hstep
  dsimp only at hstep
  rw [hread] at hstep
  split at hstep
  · cases hstep
  · next hthread => exact ⟨Except.ok.inj hstep, fun targetUser h => hthread targetUser h⟩

/-- A response ends the wait: the chat goes on, or the thread goes back to the loop of `run`. -/
theorem step_responded {respPacket : Mcc.Packet}
    (hstep : d.step iter (.responded respPacket) = .ok (d', out)) :
    ∃ targetUser, d.thread = .waiting targetUser ∧
      (d', out) = if (App.chatVerdict respPacket).1 then
          (d.read (.chatting targetUser), { written := (App.chatVerdict respPacket).2 })
        else d.loop (App.chatVerdict respPacket).2 := by
  unfold step at hstep
  dsimp only at hstep
  split at hstep
  · next targetUser hthread =>
      refine ⟨targetUser, hthread, ?_⟩
      split_ifs at hstep ⊢
      · exact (Except.ok.inj hstep).symm
      · exact (Except.ok.inj hstep).symm
  · cases hstep

/-- The requests of a thread that goes on with a line: one, for a line of a chat. -/
theorem resume_request {line : Bytes} {reqPacket : Mcc.Packet}
    (h : (d.resume iter line).2.request = some reqPacket) :
    ∃ targetUser, d.thread = .chatting targetUser ∧ line ≠ text "x" ∧
      reqPacket = (d.app.chatRequest targetUser line).1 := by
  unfold resume at h
  split at h
  · split at h <;> cases h
  · split at h <;> cases h
  · next targetUser hthread =>
      split_ifs at h with hx
      · cases h
      · cases h
        exact ⟨targetUser, hthread, hx, rfl⟩
  · cases h

/-- A step that hands no line to the thread. -/
structure Quiet (d d' : Dialogue) (out : Shown) : Prop where
  id : d'.app.id = d.app.id
  request : out.request = none
  sent : out.sent = none
  txBuffer : d'.txBuffer = d.txBuffer
  inChat : ∀ targetUser, d'.thread = .chatting targetUser ∨ d'.thread = .waiting targetUser →
    ∃ targetUser', d.thread = .chatting targetUser' ∨ d.thread = .waiting targetUser'

/-- **A step** hands a line to the thread, at a newline, or sends nothing. -/
theorem step_cases {event : DialogueEvent} (hstep : d.step iter event = .ok (d', out)) :
    (event = .typed 0x0A ∧
      ({ d with console := {} } : Dialogue).resume iter d.console.userInput = (d', out)) ∨
      Quiet d d' out := by
  cases event with
  | typed key =>
      by_cases hkey : key = 0x0A
      · subst hkey
        exact .inl ⟨rfl, (step_newline hstep).1⟩
      · obtain ⟨c, rfl, rfl, -⟩ := step_key hkey hstep
        exact .inr ⟨rfl, rfl, rfl, rfl, fun targetUser h => ⟨targetUser, h⟩⟩
  | polledUsers respPacket =>
      obtain ⟨rfl, rfl⟩ := Prod.mk.inj (Except.ok.inj hstep)
      exact .inr ⟨App.id_updateOnlineUsers iter d.app respPacket, rfl, rfl, rfl,
        fun targetUser h => ⟨targetUser, h⟩⟩
  | polledMessages respPacket =>
      obtain ⟨rfl, rfl⟩ := Prod.mk.inj (Except.ok.inj hstep)
      exact .inr ⟨rfl, rfl, rfl, rfl, fun targetUser h => ⟨targetUser, h⟩⟩
  | responded respPacket =>
      obtain ⟨targetUser, hthread, heq⟩ := step_responded hstep
      split_ifs at heq
      · obtain ⟨rfl, rfl⟩ := Prod.mk.inj heq
        exact .inr ⟨rfl, rfl, rfl, rfl, fun _ _ => ⟨targetUser, .inr hthread⟩⟩
      · obtain ⟨rfl, rfl⟩ := Prod.mk.inj heq
        exact .inr ⟨rfl, rfl, rfl, rfl, fun _ _ => ⟨targetUser, .inr hthread⟩⟩

/-- A request is sent at a newline, for the line of a chat. -/
theorem step_request {event : DialogueEvent} {reqPacket : Mcc.Packet}
    (hstep : d.step iter event = .ok (d', out)) (h : out.request = some reqPacket) :
    event = .typed 0x0A ∧ ∃ targetUser, d.thread = .chatting targetUser ∧
      d.console.userInput ≠ text "x" ∧
      reqPacket = (d.app.chatRequest targetUser d.console.userInput).1 := by
  rcases step_cases hstep with ⟨rfl, hresume⟩ | hquiet
  · have hout : (({ d with console := {} } : Dialogue).resume iter
        d.console.userInput).2.request = some reqPacket := by rw [hresume, h]
    obtain ⟨targetUser, hthread, hx, hreq⟩ := resume_request hout
    exact ⟨rfl, targetUser, hthread, hx, hreq⟩
  · rw [hquiet.request] at h
    cases h

theorem resume_sent (iter : Traversal Bytes UserId) (d : Dialogue) (line : Bytes) :
    (d.resume iter line).2.sent = (d.resume iter line).2.request.map fun reqPacket =>
      (App.transmit reqPacket d.txBuffer).1 := by
  unfold resume
  split
  · split <;> rfl
  · split <;> rfl
  · split_ifs <;> rfl
  · rfl

/-- What is sent is read from the buffer that the request was written to. -/
theorem sent_step {event : DialogueEvent} (hstep : d.step iter event = .ok (d', out)) :
    out.sent = out.request.map fun reqPacket => (App.transmit reqPacket d.txBuffer).1 := by
  rcases step_cases hstep with ⟨-, hresume⟩ | hquiet
  · have hsent := resume_sent iter ({ d with console := {} } : Dialogue)
      d.console.userInput
    rwa [hresume] at hsent
  · rw [hquiet.sent, hquiet.request, Option.map_none]

/-- A chat has a buffer of the size of every buffer. -/
def Buffered (d : Dialogue) : Prop :=
  ∀ targetUser, d.thread = .chatting targetUser ∨ d.thread = .waiting targetUser →
    d.txBuffer.length = App.bufferSize

theorem Buffered.resume (iter : Traversal Bytes UserId) (h : d.Buffered) (line : Bytes) :
    (d.resume iter line).1.Buffered := by
  unfold Dialogue.resume
  split
  · split <;> rintro targetUser (⟨⟨⟩⟩ | ⟨⟨⟩⟩)
  · split
    · rintro targetUser (⟨⟨⟩⟩ | ⟨⟨⟩⟩)
    · rintro targetUser (⟨⟨⟩⟩ | ⟨⟨⟩⟩)
    · exact fun _ _ => List.length_replicate
  · next targetUser hthread =>
      split_ifs
      · rintro targetUser (⟨⟨⟩⟩ | ⟨⟨⟩⟩)
      · intro _ _
        calc (App.transmit (d.app.chatRequest targetUser line).1 d.txBuffer).2.length
            = d.txBuffer.length := App.transmit_length _ _
          _ = App.bufferSize := h targetUser (.inl hthread)
  · exact h

theorem Buffered.step {event : DialogueEvent} (h : d.Buffered)
    (hstep : d.step iter event = .ok (d', out)) : d'.Buffered := by
  rcases step_cases hstep with ⟨-, hresume⟩ | hquiet
  · have hbuffered : ({ d with console := {} } : Dialogue).Buffered := h
    have hnext := hbuffered.resume iter d.console.userInput
    rwa [hresume] at hnext
  · intro targetUser hthread
    obtain ⟨targetUser', hthread'⟩ := hquiet.inChat targetUser hthread
    rw [hquiet.txBuffer]
    exact h targetUser' hthread'

/-- **One send**: of a line of the chat, whole if the packet fits the buffer, and otherwise from
behind the buffer. -/
theorem Buffered.sent (h : d.Buffered) {event : DialogueEvent}
    (hstep : d.step iter event = .ok (d', out)) {sent : Except Fault Bytes}
    (hsent : out.sent = some sent) :
    event = .typed 0x0A ∧ d.console.userInput ≠ text "x" ∧ ∃ targetId,
      sent = if byteSizeLong (App.sendRequest d.app.id targetId d.console.userInput)
          ≤ App.bufferSize
        then .ok (serialize (App.sendRequest d.app.id targetId d.console.userInput))
        else .error .outOfBounds := by
  rw [sent_step hstep, Option.map_eq_some_iff] at hsent
  obtain ⟨reqPacket, hrequest, rfl⟩ := hsent
  obtain ⟨hevent, targetUser, hthread, hx, rfl⟩ := step_request hstep hrequest
  refine ⟨hevent, hx, (d.app.chatRequest targetUser
    d.console.userInput).2.nameToId[targetUser]?.getD 0, ?_⟩
  rw [App.transmit_eq, h targetUser (.inl hthread)]
  rfl

end Dialogue

end ChatApp
