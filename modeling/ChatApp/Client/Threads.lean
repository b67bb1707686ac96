import ChatApp.Client.Dialogue
import ChatApp.Lib.Mutex

set_option autoImplicit false

/-! # The threads of the client (`client/app.cpp`, `console/console.cpp`)

`App::run` after the registration, mutex by mutex: the thread that talks to the user and the
two polls, in any interleaving. `name_mtx` is for the two maps and `m_console_mtx` for what the
console keeps and prints; a function of the console locks and unlocks the latter itself, also
where it is called with the former locked. `id_to_name_` is also read, and changed, without a
mutex: so each call on that map is a step of its own. The rest of the body of a critical section
is one step, but for what it calls.

What comes from outside are keys, connections to the server and responses. `sleep_for` and the
sending of a request are not seen.
-/

namespace ChatApp

open Lib

/-- `name_mtx` and `m_console_mtx`. -/
inductive AppMutex
  | name
  | console
  deriving Repr, DecidableEq

instance : Fintype AppMutex where
  elems := {.name, .console}
  complete m := by cases m <;> decide

/-- The thread of `run`, and the two that it starts. -/
inductive AppThread
  | main
  | periodicGetMessages
  | periodicGetOnlineUsers
  deriving Repr, DecidableEq

/-- What the threads share, and what has been printed. -/
structure AppMemory where
  app : App
  console : Console := {}
  cout : Bytes := []
  deriving DecidableEq

/-- The reads of the thread that talks to the user. -/
inductive AppRead
  | getUserCommand
  | askTargetUser
  | chatting (targetUser : Bytes)
  deriving Repr, DecidableEq

/-- Where the thread is in a read. -/
def AppRead.thread : AppRead → MainThread
  | .getUserCommand => .getUserCommand
  | .askTargetUser => .askTargetUser
  | .chatting targetUser => .chatting targetUser

/-- What a thread does between its locks and unlocks. -/
inductive AppTask
  /-- The body of `Console::write`. -/
  | write (s : Bytes)
  /-- The first section of `Console::read`. -/
  | readPrompt (read : AppRead)
  /-- `getchar`, in a read. -/
  | getchar (read : AppRead)
  /-- The second section of `Console::read`, with the key. -/
  | readChar (key : UInt8) (read : AppRead)
  /-- The section of `taskChatWithUser` that looks for the user to chat with. -/
  | findUser (targetUser : Bytes)
  /-- `connectB`, for a line of a chat. -/
  | connect (targetUser msg : Bytes)
  /-- The section of `taskChatWithUser` that looks up the id. -/
  | targetId (targetUser msg : Bytes)
  /-- The response to a line of a chat. -/
  | receive (targetUser : Bytes)
  /-- The section of `printOnlineUsers`. -/
  | printNames
  /-- A response to the poll for online users. -/
  | pollUsers
  /-- The section of `periodicGetOnlineUsers`, up to the new `name_to_id_`. -/
  | update (respPacket : Mcc.Packet)
  /-- `id_to_name_.clear()`, in the section. -/
  | clear
  /-- `id_to_name_.emplace`, in the section. -/
  | emplace (mapping : Bytes × UserId)
  /-- A response to the poll for messages. -/
  | pollMessages
  /-- A message of the response: `id_to_name_.find` of the sender. -/
  | showMessage (msg : Mcc.UserMessage)
  /-- `id_to_name_[msg.user_id()]`, when the sender has been found. -/
  | senderName (msg : Mcc.UserMessage)
  deriving Repr, DecidableEq

/-- What the threads share and change. -/
inductive AppVar
  | nameToId
  | idToName
  | console
  deriving Repr, DecidableEq

/-- The mutex that is meant for it. -/
def AppVar.mutex : AppVar → AppMutex
  | .nameToId | .idToName => .name
  | .console => .console

/-- What a task reads or changes. -/
def AppTask.accesses : AppTask → List AppVar
  | .write _ | .readPrompt _ | .readChar _ _ => [.console]
  | .findUser _ | .targetId _ _ | .printNames => [.nameToId]
  | .update _ => [.nameToId]
  | .clear | .showMessage _ | .senderName _ => [.idToName]
  | .emplace _ => [.nameToId, .idToName]
  | .getchar _ | .connect _ _ | .receive _ | .pollUsers | .pollMessages => []

/-- What comes from outside. -/
inductive AppInput
  | key (key : UInt8)
  | connected
  | response (respPacket : Mcc.Packet)
  deriving Repr, DecidableEq

/-- What a task gives: the string that a read returns, and the request that is made. -/
structure AppEffect where
  returned : Option Bytes := none
  request : Option Mcc.Packet := none
  deriving Repr, DecidableEq

abbrev AppOp := Op AppMutex AppTask

abbrev AppThreads := Threads AppThread AppMutex AppTask AppMemory

/-- The thread that takes a step, and what it has from outside for it. -/
abbrev AppEvent := AppThread × Option AppInput

abbrev AppEntry := Entry AppThreads AppEvent (Option (AppTask × AppEffect))

namespace AppThreads

open AppTask

/-! ## Calls -/

/-- `Console::write`. -/
def writeCall (s : Bytes) : List AppOp :=
  [.lock .console, .task (.write s), .unlock .console]

/-- `Console::read`. -/
def readCall (read : AppRead) : List AppOp := [.lock .console, .task (.readPrompt read)]

def printOnlineUsers : List AppOp := [.lock .name, .task .printNames, .unlock .name]

/-- The loop of `run`, which begins with `getUserCommand`. -/
def loop (app : App) : List AppOp :=
  app.instructions.flatMap writeCall ++ readCall .getUserCommand

/-- What the thread goes on with when a read returns. -/
def resume (app : App) (line : Bytes) : AppRead → List AppOp
  | .getUserCommand =>
      match App.commandOf line with
      | .error complaint => writeCall complaint ++ readCall .getUserCommand
      | .ok .kDisplayOnlineUsers => printOnlineUsers ++ loop app
      | .ok .kChatWithUser => readCall .askTargetUser
  | .askTargetUser =>
      if line = text "x" then loop app else [.lock .name, .task (.findUser line)]
  | .chatting targetUser =>
      if line = text "x" then loop app else [.task (.connect targetUser line)]

/-! ## Tasks -/

/-- A task that needs nothing from outside: what becomes of the memory, and what the thread goes
on with. A section that ends early unlocks the mutex there. -/
def work (iter : Traversal Bytes UserId) (mem : AppMemory) :
    AppTask → Option (AppMemory × List AppOp × AppEffect)
  | .write s => some ({ mem with cout := mem.cout ++ mem.console.write s }, [], {})
  | .readPrompt read =>
      let (console, out) := mem.console.readPrompt (Dialogue.promptOf read.thread)
      some ({ mem with console := console, cout := mem.cout ++ out },
        [.unlock .console, .task (.getchar read)], {})
  | .readChar key read =>
      match mem.console.readChar key.toNat with
      | (console, out, none) =>
          some ({ mem with console := console, cout := mem.cout ++ out },
            [.unlock .console, .task (.getchar read)], {})
      | (console, out, some line) =>
          some ({ mem with console := console, cout := mem.cout ++ out },
            .unlock .console :: resume mem.app line read, { returned := some line })
  | .findUser targetUser =>
      if mem.app.isOnline targetUser then
        some (mem, .unlock .name :: readCall (.chatting targetUser), {})
      else
        some (mem, writeCall (text "Error,  user not available")
          ++ .unlock .name :: readCall .askTargetUser, {})
  | .targetId targetUser msg =>
      let (reqPacket, app) := mem.app.chatRequest targetUser msg
      some ({ mem with app := app }, [.unlock .name, .task (.receive targetUser)],
        { request := some reqPacket })
  | .printNames => some (mem, (mem.app.printOnlineUsers iter).flatMap writeCall, {})
  | .update respPacket =>
      let nameToId := App.newNameToId respPacket
      if nameToId = mem.app.nameToId then some (mem, [.unlock .name, .task .pollUsers], {})
      else
        some ({ mem with app := { mem.app with nameToId := nameToId } },
          .task .clear :: (iter.order nameToId).map (fun mapping => .task (.emplace mapping)) ++
            (writeCall (text "**********Updated Online users: ") ++
              if nameToId.size = 0 then
                writeCall (text "No other users currently online")
                  ++ [.unlock .name, .task .pollUsers]
              else .unlock .name :: (printOnlineUsers ++ [.task .pollUsers])), {})
  | .clear => some ({ mem with app := { mem.app with idToName := ∅ } }, [], {})
  | .emplace mapping =>
      let idToName := App.emplace mem.app.idToName mapping
      some ({ mem with app := { mem.app with idToName := idToName } }, [], {})
  | .showMessage msg =>
      match mem.app.idToName[msg.userId.getD 0]? with
      | some _ => some (mem, [.task (.senderName msg)], {})
      | none => some (mem, writeCall (text "Unknown sender > " ++ msg.message.getD []), {})
  | .senderName msg =>
      let name := mem.app.idToName[msg.userId.getD 0]?.getD []
      let idToName := mem.app.idToName.subscript (msg.userId.getD 0) (fun name => name)
      some ({ mem with app := { mem.app with idToName := idToName } },
        writeCall (name ++ text "> " ++ msg.message.getD []), {})
  | .getchar _ | .connect _ _ | .receive _ | .pollUsers | .pollMessages => none

/-- A task that waits for something from outside. -/
def answer (mem : AppMemory) : AppTask → AppInput → Option (List AppOp)
  | .getchar read, .key key => some [.lock .console, .task (.readChar key read)]
  | .connect targetUser msg, .connected => some [.lock .name, .task (.targetId targetUser msg)]
  | .receive targetUser, .response respPacket =>
      let verdict := App.chatVerdict respPacket
      some (verdict.2.flatMap writeCall
        ++ if verdict.1 then readCall (.chatting targetUser) else loop mem.app)
  | .pollUsers, .response respPacket =>
      if ((respPacket.respUsers.getD {}).respValue).getD 0 ≠ 0 then
        some (writeCall (text "DEBUG: ERR, negative response for get online users request")
          ++ [.task .pollUsers])
      else some [.lock .name, .task (.update respPacket)]
  | .pollMessages, .response respPacket =>
      some ((respPacket.respRecv.getD {}).messages.map (fun msg => .task (.showMessage msg))
        ++ [.task .pollMessages])
  | _, _ => none

def perform (iter : Traversal Bytes UserId) (task : AppTask) (input : Option AppInput)
    (mem : AppMemory) : Option (AppMemory × List AppOp × AppEffect) :=
  match input with
  | none => work iter mem task
  | some input => (answer mem task input).map fun ops => (mem, ops, {})

def step (iter : Traversal Bytes UserId) (s : AppThreads) (event : AppEvent) :
    Except Unit (AppThreads × Option (AppTask × AppEffect)) :=
  Threads.step (perform iter) s event

/-- After the registration, when the two polls have been started. -/
def start (username : Bytes) (id : UserId) : AppThreads where
  shared := { app := { username := username, id := id } }
  owner _ := none
  ops
    | .main => loop { username := username, id := id }
    | .periodicGetMessages => [.task .pollMessages]
    | .periodicGetOnlineUsers => [.task .pollUsers]

/-! ## The discipline -/

/-- `m_console_mtx` may be locked with `name_mtx` locked. -/
def rank : AppMutex → Nat
  | .name => 0
  | .console => 1

/-- Which threads have a task, with which mutexes locked, and which of them are left locked. The
line `x` and a negative response do not get as far as to a section. -/
def Allowed (t : AppThread) (held : List AppMutex) (task : AppTask) (after : List AppMutex) :
    Prop :=
  match task with
  | .write _ => held.head? = some .console ∧ after = held
  | .readPrompt _ => t = .main ∧ held = [.console] ∧ after = []
  | .getchar _ => t = .main ∧ held = [] ∧ after = []
  | .readChar _ _ => t = .main ∧ held = [.console] ∧ after = []
  | .findUser line => t = .main ∧ held = [.name] ∧ after = [] ∧ line ≠ text "x"
  | .connect _ msg => t = .main ∧ held = [] ∧ after = [] ∧ msg ≠ text "x"
  | .targetId _ msg => t = .main ∧ held = [.name] ∧ after = [] ∧ msg ≠ text "x"
  | .receive _ => t = .main ∧ held = [] ∧ after = []
  | .printNames => t ≠ .periodicGetMessages ∧ held = [.name] ∧ after = held
  | .pollUsers => t = .periodicGetOnlineUsers ∧ held = [] ∧ after = []
  | .update respPacket =>
      t = .periodicGetOnlineUsers ∧ held = [.name] ∧ after = [] ∧ Positive respPacket
  | .clear | .emplace _ => t = .periodicGetOnlineUsers ∧ held = [.name] ∧ after = held
  | .pollMessages | .showMessage _ | .senderName _ =>
      t = .periodicGetMessages ∧ held = [] ∧ after = []

/-- The operations of a thread that has locked `held`. -/
abbrev Rules (t : AppThread) : List AppMutex → List AppOp → Prop := Scoped rank (Allowed t)

variable {iter : Traversal Bytes UserId} {t : AppThread} {held : List AppMutex} {ops : List AppOp}

theorem rules_unlock (h : Rules t held ops) (m : AppMutex) :
    Rules t (m :: held) (.unlock m :: ops) := ⟨held, rfl, h⟩

theorem rules_task {task : AppTask} {after : List AppMutex} (hok : Allowed t held task after)
    (h : Rules t after ops) : Rules t held (.task task :: ops) := ⟨after, hok, h⟩

theorem rules_writeCall (hheld : .console ∉ held) (h : Rules t held ops) (s : Bytes) :
    Rules t held (writeCall s ++ ops) := by
  refine ⟨fun m hm => ?_, _, ⟨rfl, rfl⟩, held, rfl, h⟩
  cases m with
  | name => exact Nat.zero_lt_one
  | console => exact absurd hm hheld

theorem rules_writeCalls (hheld : .console ∉ held) (h : Rules t held ops) (written : List Bytes) :
    Rules t held (written.flatMap writeCall ++ ops) := by
  induction written with
  | nil => exact h
  | cons s written ih =>
      rw [List.flatMap_cons, List.append_assoc]
      exact rules_writeCall hheld ih s

theorem rules_readCall (h : Rules .main [] ops) (read : AppRead) :
    Rules .main [] (readCall read ++ ops) :=
  ⟨List.forall_mem_nil _, rules_task ⟨rfl, rfl, rfl⟩ h⟩

theorem rules_loop (h : Rules .main [] ops) (app : App) : Rules .main [] (loop app ++ ops) := by
  rw [loop, List.append_assoc]
  exact rules_writeCalls List.not_mem_nil (rules_readCall h _) _

theorem rules_printOnlineUsers (ht : t ≠ .periodicGetMessages) (h : Rules t [] ops) :
    Rules t [] (printOnlineUsers ++ ops) :=
  ⟨List.forall_mem_nil _, _, ⟨ht, rfl, rfl⟩, [], rfl, h⟩

theorem rules_emplaces (h : Rules .periodicGetOnlineUsers [.name] ops)
    (mappings : List (Bytes × UserId)) : Rules .periodicGetOnlineUsers [.name]
      (.task .clear :: mappings.map (fun mapping => .task (.emplace mapping)) ++ ops) := by
  refine rules_task ⟨rfl, rfl, rfl⟩ ?_
  induction mappings with
  | nil => exact h
  | cons mapping mappings ih => exact rules_task ⟨rfl, rfl, rfl⟩ ih

theorem rules_resume (h : Rules .main [] ops) (app : App) (line : Bytes) (read : AppRead) :
    Rules .main [] (resume app line read ++ ops) := by
  unfold resume
  split
  · split
    · rw [List.append_assoc]
      exact rules_writeCall List.not_mem_nil (rules_readCall h _) _
    · rw [List.append_assoc]
      exact rules_printOnlineUsers (by decide) (rules_loop h app)
    · exact rules_readCall h _
  · split_ifs
    · exact rules_loop h app
    · next hx => exact ⟨List.forall_mem_nil _, rules_task ⟨rfl, rfl, rfl, hx⟩ h⟩
  · split_ifs
    · exact rules_loop h app
    · next hx => exact rules_task ⟨rfl, rfl, rfl, hx⟩ h

/-- What a task puts in its place keeps to the rules. -/
theorem rules_work {task : AppTask} {after : List AppMutex} {mem mem' : AppMemory}
    {body : List AppOp} {effect : AppEffect} (hok : Allowed t held task after)
    (hwork : work iter mem task = some (mem', body, effect)) (h : Rules t after ops) :
    Rules t held (body ++ ops) := by
  cases task with
  | write s =>
      obtain ⟨-, rfl⟩ := hok
      cases hwork
      exact h
  | readPrompt read =>
      obtain ⟨rfl, rfl, rfl⟩ := hok
      cases hwork
      have hread : Rules .main [] (.task (.getchar read) :: ops) :=
        rules_task ⟨rfl, rfl, rfl⟩ h
      exact rules_unlock hread .console
  | readChar key read =>
      obtain ⟨rfl, rfl, rfl⟩ := hok
      simp only [work] at hwork
      split at hwork
      · cases hwork
        have hread : Rules .main [] (.task (.getchar read) :: ops) :=
          rules_task ⟨rfl, rfl, rfl⟩ h
        exact rules_unlock hread .console
      · cases hwork
        exact rules_unlock (rules_resume h _ _ _) .console
  | findUser targetUser =>
      obtain ⟨rfl, rfl, rfl, -⟩ := hok
      simp only [work] at hwork
      split_ifs at hwork
      · cases hwork
        exact rules_unlock (rules_readCall h _) .name
      · cases hwork
        rw [List.append_assoc]
        exact rules_writeCall (by decide) (rules_unlock (rules_readCall h _) .name) _
  | targetId targetUser msg =>
      obtain ⟨rfl, rfl, rfl, -⟩ := hok
      cases hwork
      have hwait : Rules .main [] (.task (.receive targetUser) :: ops) :=
        rules_task ⟨rfl, rfl, rfl⟩ h
      exact rules_unlock hwait .name
  | printNames =>
      obtain ⟨-, rfl, rfl⟩ := hok
      cases hwork
      exact rules_writeCalls (by decide) h _
  | update respPacket =>
      obtain ⟨rfl, rfl, rfl, -⟩ := hok
      have hpoll : Rules .periodicGetOnlineUsers [] (.task .pollUsers :: ops) :=
        rules_task ⟨rfl, rfl, rfl⟩ h
      simp only [work] at hwork
      split_ifs at hwork
      · cases hwork
        exact rules_unlock hpoll .name
      · cases hwork
        rw [List.append_assoc, List.append_assoc, List.append_assoc]
        exact rules_emplaces (rules_writeCall (by decide)
          (rules_writeCall (by decide) (rules_unlock hpoll .name) _) _) _
      · cases hwork
        have hprint := rules_printOnlineUsers (by decide) hpoll
        rw [List.append_assoc, List.append_assoc, @List.cons_append _ _ (printOnlineUsers ++ _),
          List.append_assoc]
        exact rules_emplaces (rules_writeCall (by decide) (rules_unlock hprint .name) _) _
  | clear =>
      obtain ⟨rfl, rfl, rfl⟩ := hok
      cases hwork
      exact h
  | emplace mapping =>
      obtain ⟨rfl, rfl, rfl⟩ := hok
      cases hwork
      exact h
  | showMessage msg =>
      obtain ⟨rfl, rfl, rfl⟩ := hok
      simp only [work] at hwork
      split at hwork
      · cases hwork
        exact rules_task ⟨rfl, rfl, rfl⟩ h
      · cases hwork
        exact rules_writeCall List.not_mem_nil h _
  | senderName msg =>
      obtain ⟨rfl, rfl, rfl⟩ := hok
      cases hwork
      exact rules_writeCall List.not_mem_nil h _
  | getchar read => cases hwork
  | connect targetUser msg => cases hwork
  | receive targetUser => cases hwork
  | pollUsers => cases hwork
  | pollMessages => cases hwork

theorem rules_answer {task : AppTask} {after : List AppMutex} {mem : AppMemory}
    {input : AppInput} {body : List AppOp} (hok : Allowed t held task after)
    (hanswer : answer mem task input = some body) (h : Rules t after ops) :
    Rules t held (body ++ ops) := by
  unfold answer at hanswer
  split at hanswer
  · obtain ⟨rfl, rfl, rfl⟩ := hok
    cases hanswer
    exact ⟨List.forall_mem_nil _, rules_task ⟨rfl, rfl, rfl⟩ h⟩
  · obtain ⟨rfl, rfl, rfl, hx⟩ := hok
    cases hanswer
    exact ⟨List.forall_mem_nil _, rules_task ⟨rfl, rfl, rfl, hx⟩ h⟩
  · obtain ⟨rfl, rfl, rfl⟩ := hok
    cases hanswer
    rw [List.append_assoc]
    refine rules_writeCalls List.not_mem_nil ?_ _
    split_ifs
    · exact rules_readCall h _
    · exact rules_loop h _
  · obtain ⟨rfl, rfl, rfl⟩ := hok
    have hpoll : Rules .periodicGetOnlineUsers [] (.task .pollUsers :: ops) :=
      rules_task ⟨rfl, rfl, rfl⟩ h
    split_ifs at hanswer with hnegative
    · cases hanswer
      rw [List.append_assoc]
      exact rules_writeCall List.not_mem_nil hpoll _
    · cases hanswer
      exact ⟨List.forall_mem_nil _, rules_task ⟨rfl, rfl, rfl, not_not.mp hnegative⟩ h⟩
  · next respPacket =>
    obtain ⟨rfl, rfl, rfl⟩ := hok
    cases hanswer
    rw [List.append_assoc]
    generalize (respPacket.respRecv.getD {}).messages = messages
    induction messages with
    | nil => exact rules_task ⟨rfl, rfl, rfl⟩ h
    | cons msg messages ih => exact rules_task ⟨rfl, rfl, rfl⟩ ih
  · cases hanswer

/-! ## What is done with a mutex locked ends -/

theorem ends_writeCall (h : Ends (perform iter) held ops) (s : Bytes) :
    Ends (perform iter) held (writeCall s ++ ops) := by
  refine .lock (.task fun mem mem' body effect hperform => ?_)
  cases hperform
  exact .unlock h

theorem ends_writeCalls (h : Ends (perform iter) held ops) (written : List Bytes) :
    Ends (perform iter) held (written.flatMap writeCall ++ ops) := by
  induction written with
  | nil => exact h
  | cons s written ih =>
      rw [List.flatMap_cons, List.append_assoc]
      exact ends_writeCall ih s

theorem ends_emplaces (h : Ends (perform iter) held ops) (mappings : List (Bytes × UserId)) :
    Ends (perform iter) held
      (.task .clear :: mappings.map (fun mapping => .task (.emplace mapping)) ++ ops) := by
  refine .task fun mem mem' body effect hperform => ?_
  cases hperform
  induction mappings with
  | nil => exact h
  | cons mapping mappings ih =>
      refine .task fun mem mem' body effect hperform => ?_
      cases hperform
      exact ih

theorem ends_task {task : AppTask} {after : List AppMutex} (hok : Allowed t held task after)
    (hheld : held ≠ []) (h : Ends (perform iter) after ops) :
    Ends (perform iter) held (.task task :: ops) := by
  refine .task fun mem mem' body effect hperform => ?_
  have hwork : work iter mem task = some (mem', body, effect) := hperform
  cases task with
  | write s =>
      obtain ⟨-, rfl⟩ := hok
      cases hwork
      exact h
  | readPrompt read =>
      obtain ⟨-, rfl, -⟩ := hok
      cases hwork
      exact .unlock (.free _)
  | readChar key read =>
      obtain ⟨-, rfl, -⟩ := hok
      simp only [work] at hwork
      split at hwork <;> cases hwork <;> exact .unlock (.free _)
  | findUser targetUser =>
      obtain ⟨-, rfl, -⟩ := hok
      simp only [work] at hwork
      split_ifs at hwork
      · cases hwork
        exact .unlock (.free _)
      · cases hwork
        rw [List.append_assoc]
        exact ends_writeCall (.unlock (.free _)) _
  | targetId targetUser msg =>
      obtain ⟨-, rfl, -⟩ := hok
      cases hwork
      exact .unlock (.free _)
  | printNames =>
      obtain ⟨-, -, rfl⟩ := hok
      cases hwork
      exact ends_writeCalls h _
  | update respPacket =>
      obtain ⟨-, rfl, -⟩ := hok
      simp only [work] at hwork
      split_ifs at hwork
      · cases hwork
        exact .unlock (.free _)
      · cases hwork
        rw [List.append_assoc, List.append_assoc, List.append_assoc]
        exact ends_emplaces (ends_writeCall (ends_writeCall (.unlock (.free _)) _) _) _
      · cases hwork
        rw [List.append_assoc, List.append_assoc]
        exact ends_emplaces (ends_writeCall (.unlock (.free _)) _) _
  | clear =>
      obtain ⟨-, -, rfl⟩ := hok
      cases hwork
      exact h
  | emplace mapping =>
      obtain ⟨-, -, rfl⟩ := hok
      cases hwork
      exact h
  | showMessage msg => exact absurd hok.2.1 hheld
  | senderName msg => exact absurd hok.2.1 hheld
  | getchar read => cases hwork
  | connect targetUser msg => cases hwork
  | receive targetUser => cases hwork
  | pollUsers => cases hwork
  | pollMessages => cases hwork

/-- With a mutex locked a thread waits for nothing from outside. -/
theorem exists_work {task : AppTask} {after : List AppMutex} (hok : Allowed t held task after)
    (hheld : held ≠ []) (mem : AppMemory) :
    ∃ mem' body effect, work iter mem task = some (mem', body, effect) := by
  cases task with
  | write s => exact ⟨_, _, _, rfl⟩
  | readPrompt read => exact ⟨_, _, _, rfl⟩
  | readChar key read =>
      simp only [work]
      split <;> exact ⟨_, _, _, rfl⟩
  | findUser targetUser =>
      simp only [work]
      split_ifs <;> exact ⟨_, _, _, rfl⟩
  | targetId targetUser msg => exact ⟨_, _, _, rfl⟩
  | printNames => exact ⟨_, _, _, rfl⟩
  | update respPacket =>
      simp only [work]
      split_ifs <;> exact ⟨_, _, _, rfl⟩
  | clear => exact ⟨_, _, _, rfl⟩
  | emplace mapping => exact ⟨_, _, _, rfl⟩
  | showMessage msg => exact absurd hok.2.1 hheld
  | senderName msg => exact absurd hok.2.1 hheld
  | getchar read => exact absurd hok.2.1 hheld
  | connect targetUser msg => exact absurd hok.2.1 hheld
  | receive targetUser => exact absurd hok.2.1 hheld
  | pollUsers => exact absurd hok.2.1 hheld
  | pollMessages => exact absurd hok.2.1 hheld

/-- The tasks of the client keep to the rules. -/
theorem disciplined (iter : Traversal Bytes UserId) :
    Disciplined (perform iter) rank Allowed where
  rules {t held a after input s s' body b ops} hok hperform h := by
    rcases input with _ | input
    · exact rules_work hok hperform h
    · obtain ⟨body, hanswer, heq⟩ := Option.map_eq_some_iff.mp hperform
      cases heq
      exact rules_answer hok hanswer h
  goes hok hheld := exists_work hok hheld
  ends := ends_task

/-! ## Runs -/

variable {s : AppThreads} {username : Bytes} {id : UserId} {events : List AppEvent}
  {log : List AppEntry}

theorem locked_start (username : Bytes) (id : UserId) :
    Locked rank Allowed (start username id) fun _ => [] where
  rules t := by
    cases t with
    | main =>
        have hnil : Rules .main [] [] := rfl
        have hloop := rules_loop hnil { username := username, id := id }
        rwa [List.append_nil] at hloop
    | periodicGetMessages => exact rules_task ⟨rfl, rfl, rfl⟩ rfl
    | periodicGetOnlineUsers => exact rules_task ⟨rfl, rfl, rfl⟩ rfl
  ranked _ := List.Pairwise.nil
  owner m t := by simp [start]

/-- Before every step of a run the threads keep to the rules. -/
theorem along_locked (iter : Traversal Bytes UserId) (username : Bytes) (id : UserId)
    (events : List AppEvent) :
    Along (step iter) (fun s _ => ∃ held, Locked rank Allowed s held) (start username id) events :=
  along_of_invariant (I := fun s _ => ∃ held, Locked rank Allowed s held)
    (fun _ _ _ hlocked => hlocked)
    (fun _ _ _ _ _ ⟨_, hlocked⟩ hstep => hlocked.step (disciplined iter) hstep)
    ⟨_, locked_start username id⟩

theorem locked_of_run (hrun : run (step iter) (start username id) events = .ok (s, log)) :
    ∃ held, Locked rank Allowed s held :=
  run_invariant (I := fun s => ∃ held, Locked rank Allowed s held) (p := fun _ _ => True)
    (fun _ _ _ _ ⟨_, hlocked⟩ _ hstep => hlocked.step (disciplined iter) hstep)
    ⟨_, locked_start username id⟩ (fun _ _ => trivial) hrun

/-- **No deadlock.** In every run a thread goes on, or waits for a mutex that another thread
has, or waits with no mutex for a key, the server or a response; and without anything of these
the threads that have a mutex can go on until both mutexes are free. -/
theorem free_of_run (hrun : run (step iter) (start username id) events = .ok (s, log)) :
    (∀ t op ops, s.ops t = op :: ops →
      (∃ out, step iter s (t, none) = .ok out) ∨
      (∃ m u, op = .lock m ∧ s.owner m = some u ∧ u ≠ t) ∨
      ∃ task, op = .task task ∧ work iter s.shared task = none ∧ ∀ m, s.owner m ≠ some t) ∧
    ∃ (ts : List AppThread) (s' : AppThreads) (log' : List _),
      run (step iter) s (ts.map fun t => (t, none)) = .ok (s', log') ∧
        (∀ m, s'.owner m = none) ∧ ∀ e ∈ log', ∃ m, e.before.owner m = some e.input.1 := by
  obtain ⟨held, hlocked⟩ := locked_of_run hrun
  refine ⟨fun t op ops hops => ?_, hlocked.exists_free (disciplined iter)⟩
  rcases hlocked.goes_or_waits (disciplined iter) hops with
    hgoes | hmutex | ⟨task, hop, hwaits, hheld⟩
  · exact .inl hgoes
  · exact .inr (.inl hmutex)
  · refine .inr (.inr ⟨task, hop, hwaits, fun m hown => ?_⟩)
    rw [hlocked.owner, hheld] at hown
    exact List.not_mem_nil hown

/-- The thread of `run` is writing when a poll has something to write. -/
theorem free_of_run_two_writes :
    let negative : Mcc.Packet := { respUsers := some { respValue := some 1 } }
    ∃ s log, run (step (.ascending _ _)) (start [0x41] 7)
        [(.main, none), (.periodicGetOnlineUsers, some (.response negative))] = .ok (s, log) ∧
      s.owner .console = some .main ∧
      (s.ops .periodicGetOnlineUsers).head? = some (.lock .console) ∧
      ∃ (ts : List AppThread) (s' : AppThreads) (log' : List _),
        run (step (.ascending _ _)) s (ts.map fun t => (t, none)) = .ok (s', log') ∧
          (∀ m, s'.owner m = none) ∧ ∀ e ∈ log', ∃ m, e.before.owner m = some e.input.1 := by
  intro negative
  have hok : (run (step (.ascending _ _)) (start [0x41] 7)
      [(.main, none), (.periodicGetOnlineUsers, some (.response negative))]).map
        (fun out => (out.1.owner .console, (out.1.ops .periodicGetOnlineUsers).head?))
      = .ok (some .main, some (.lock .console)) := by decide +kernel
  obtain ⟨⟨s, log⟩, hrun, hout⟩ := map_eq_ok.mp hok
  obtain ⟨hown, hhead⟩ := Prod.mk.inj hout
  exact ⟨s, log, hrun, hown, hhead, (free_of_run hrun).2⟩

/-! ## Races -/

/-- What the threads share is the same in both, as far as the variable goes. -/
def SameAt (mem mem' : AppMemory) : AppVar → Prop
  | .nameToId => mem.app.nameToId = mem'.app.nameToId
  | .idToName => mem.app.idToName = mem'.app.idToName
  | .console => mem.console = mem'.console ∧ mem.cout = mem'.cout

/-- The username and the id are those that `registerUser` has set. -/
def SameUser (mem mem' : AppMemory) : Prop :=
  mem.app.username = mem'.app.username ∧ mem.app.id = mem'.app.id

/-- A task has to do with what it accesses only: it changes nothing else, and does the same
whatever else there is. -/
structure Confined (iter : Traversal Bytes UserId) (task : AppTask) (mem : AppMemory) : Prop where
  changes : ∀ {input mem' body effect}, perform iter task input mem = some (mem', body, effect) →
    SameUser mem' mem ∧ ∀ x ∉ task.accesses, SameAt mem' mem x
  reads : ∀ {input mem' body effect}, perform iter task input mem = some (mem', body, effect) →
    ∀ other, SameUser other mem → (∀ x ∈ task.accesses, SameAt other mem x) →
      ∃ other', perform iter task input other = some (other', body, effect) ∧
        ∀ x ∈ task.accesses, SameAt other' mem' x

theorem sameAt_of {mem mem' : AppMemory} {xs : List AppVar}
    (hname : .nameToId ∈ xs ∨ mem.app.nameToId = mem'.app.nameToId)
    (hid : .idToName ∈ xs ∨ mem.app.idToName = mem'.app.idToName)
    (hconsole : .console ∈ xs ∨ mem.console = mem'.console ∧ mem.cout = mem'.cout) :
    ∀ x ∉ xs, SameAt mem mem' x := by
  intro x hx
  cases x with
  | nameToId => exact hname.resolve_left hx
  | idToName => exact hid.resolve_left hx
  | console => exact hconsole.resolve_left hx

/-- A task changes nothing but what it accesses. -/
theorem changes_work {task : AppTask} {mem mem' : AppMemory} {body : List AppOp}
    {effect : AppEffect} (hwork : work iter mem task = some (mem', body, effect)) :
    SameUser mem' mem ∧ ∀ x ∉ task.accesses, SameAt mem' mem x := by
  have hmem {x : AppVar} {xs : List AppVar} : x ∈ x :: xs := List.mem_cons_self
  cases task with
  | write s =>
      cases hwork
      exact ⟨⟨rfl, rfl⟩, sameAt_of (.inr rfl) (.inr rfl) (.inl hmem)⟩
  | readPrompt read =>
      cases hwork
      exact ⟨⟨rfl, rfl⟩, sameAt_of (.inr rfl) (.inr rfl) (.inl hmem)⟩
  | readChar key read =>
      simp only [work] at hwork
      split at hwork <;> cases hwork <;>
        exact ⟨⟨rfl, rfl⟩, sameAt_of (.inr rfl) (.inr rfl) (.inl hmem)⟩
  | findUser targetUser =>
      simp only [work] at hwork
      split_ifs at hwork <;> cases hwork <;>
        exact ⟨⟨rfl, rfl⟩, sameAt_of (.inl hmem) (.inr rfl) (.inr ⟨rfl, rfl⟩)⟩
  | targetId targetUser msg =>
      cases hwork
      exact ⟨⟨rfl, rfl⟩, sameAt_of (.inl hmem) (.inr rfl) (.inr ⟨rfl, rfl⟩)⟩
  | printNames =>
      cases hwork
      exact ⟨⟨rfl, rfl⟩, sameAt_of (.inl hmem) (.inr rfl) (.inr ⟨rfl, rfl⟩)⟩
  | update respPacket =>
      simp only [work] at hwork
      split_ifs at hwork <;> cases hwork <;>
        exact ⟨⟨rfl, rfl⟩, sameAt_of (.inl hmem) (.inr rfl) (.inr ⟨rfl, rfl⟩)⟩
  | clear =>
      cases hwork
      exact ⟨⟨rfl, rfl⟩, sameAt_of (.inr rfl) (.inl hmem) (.inr ⟨rfl, rfl⟩)⟩
  | emplace mapping =>
      cases hwork
      exact ⟨⟨rfl, rfl⟩, sameAt_of (.inr rfl) (.inl (List.mem_cons_of_mem _ hmem))
        (.inr ⟨rfl, rfl⟩)⟩
  | showMessage msg =>
      simp only [work] at hwork
      split at hwork <;> cases hwork <;>
        exact ⟨⟨rfl, rfl⟩, sameAt_of (.inr rfl) (.inl hmem) (.inr ⟨rfl, rfl⟩)⟩
  | senderName msg =>
      cases hwork
      exact ⟨⟨rfl, rfl⟩, sameAt_of (.inr rfl) (.inl hmem) (.inr ⟨rfl, rfl⟩)⟩
  | getchar read => cases hwork
  | connect targetUser msg => cases hwork
  | receive targetUser => cases hwork
  | pollUsers => cases hwork
  | pollMessages => cases hwork

theorem loop_congr {app app' : App} (h : app'.username = app.username) : loop app' = loop app := by
  rw [loop, loop, App.instructions, App.instructions, h]

theorem resume_congr {app app' : App} (h : app'.username = app.username) (line : Bytes)
    (read : AppRead) : resume app' line read = resume app line read := by
  unfold resume
  rw [loop_congr h]

/-- What a task does depends on what it accesses. -/
theorem reads_work {task : AppTask} {mem mem' other : AppMemory} {body : List AppOp}
    {effect : AppEffect} (hwork : work iter mem task = some (mem', body, effect))
    (huser : SameUser other mem) (hsame : ∀ x ∈ task.accesses, SameAt other mem x) :
    ∃ other', work iter other task = some (other', body, effect) ∧
      ∀ x ∈ task.accesses, SameAt other' mem' x := by
  have hmem {x : AppVar} {xs : List AppVar} : x ∈ x :: xs := List.mem_cons_self
  cases task with
  | write s =>
      obtain ⟨hconsole, hcout⟩ : other.console = mem.console ∧ _ := hsame .console hmem
      cases hwork
      refine ⟨_, rfl, List.forall_mem_singleton.mpr ⟨hconsole, ?_⟩⟩
      show other.cout ++ other.console.write s = mem.cout ++ mem.console.write s
      rw [hconsole, hcout]
  | readPrompt read =>
      obtain ⟨hconsole, hcout⟩ : other.console = mem.console ∧ _ := hsame .console hmem
      cases hwork
      refine ⟨_, rfl, List.forall_mem_singleton.mpr ⟨?_, ?_⟩⟩
      · show (other.console.readPrompt _).1 = (mem.console.readPrompt _).1
        rw [hconsole]
      · show other.cout ++ (other.console.readPrompt _).2 = mem.cout ++ (mem.console.readPrompt _).2
        rw [hconsole, hcout]
  | readChar key read =>
      obtain ⟨hconsole, hcout⟩ : other.console = mem.console ∧ _ := hsame .console hmem
      simp only [work, hconsole, hcout, resume_congr huser.1] at hwork ⊢
      split at hwork <;> cases hwork <;>
        exact ⟨_, rfl, List.forall_mem_singleton.mpr ⟨rfl, rfl⟩⟩
  | findUser targetUser =>
      have hname : other.app.nameToId = mem.app.nameToId := hsame .nameToId hmem
      have honline : other.app.isOnline targetUser = mem.app.isOnline targetUser := by
        rw [App.isOnline, App.isOnline, hname]
      simp only [work] at hwork ⊢
      rw [honline]
      split_ifs at hwork ⊢ <;> cases hwork <;>
        exact ⟨_, rfl, List.forall_mem_singleton.mpr hname⟩
  | targetId targetUser msg =>
      have hname : other.app.nameToId = mem.app.nameToId := hsame .nameToId hmem
      simp only [work, App.chatRequest] at hwork ⊢
      rw [hname, huser.2]
      cases hwork
      exact ⟨_, rfl, List.forall_mem_singleton.mpr rfl⟩
  | printNames =>
      have hname : other.app.nameToId = mem.app.nameToId := hsame .nameToId hmem
      simp only [work, App.printOnlineUsers] at hwork ⊢
      rw [hname, huser.2]
      cases hwork
      exact ⟨_, rfl, List.forall_mem_singleton.mpr hname⟩
  | update respPacket =>
      have hname : other.app.nameToId = mem.app.nameToId := hsame .nameToId hmem
      simp only [work] at hwork ⊢
      rw [hname]
      split_ifs at hwork ⊢
      · cases hwork
        exact ⟨_, rfl, List.forall_mem_singleton.mpr hname⟩
      · cases hwork
        exact ⟨_, rfl, List.forall_mem_singleton.mpr rfl⟩
      · cases hwork
        exact ⟨_, rfl, List.forall_mem_singleton.mpr rfl⟩
  | clear =>
      cases hwork
      exact ⟨_, rfl, List.forall_mem_singleton.mpr rfl⟩
  | emplace mapping =>
      have hname : other.app.nameToId = mem.app.nameToId := hsame .nameToId hmem
      have hids : other.app.idToName = mem.app.idToName :=
        hsame .idToName (List.mem_cons_of_mem _ hmem)
      cases hwork
      refine ⟨_, rfl, List.forall_mem_cons.mpr ⟨hname, List.forall_mem_singleton.mpr ?_⟩⟩
      show App.emplace other.app.idToName mapping = App.emplace mem.app.idToName mapping
      rw [hids]
  | showMessage msg =>
      have hids : other.app.idToName = mem.app.idToName := hsame .idToName hmem
      simp only [work] at hwork ⊢
      rw [hids]
      split at hwork <;> cases hwork <;> exact ⟨_, rfl, List.forall_mem_singleton.mpr hids⟩
  | senderName msg =>
      have hids : other.app.idToName = mem.app.idToName := hsame .idToName hmem
      simp only [work] at hwork ⊢
      rw [hids]
      cases hwork
      exact ⟨_, rfl, List.forall_mem_singleton.mpr rfl⟩
  | getchar read => cases hwork
  | connect targetUser msg => cases hwork
  | receive targetUser => cases hwork
  | pollUsers => cases hwork
  | pollMessages => cases hwork

/-- What waits for something from outside accesses nothing. -/
theorem accesses_of_answer {task : AppTask} {mem : AppMemory} {input : AppInput}
    {body : List AppOp} (hanswer : answer mem task input = some body) : task.accesses = [] := by
  unfold answer at hanswer
  split at hanswer
  · rfl
  · rfl
  · rfl
  · rfl
  · rfl
  · cases hanswer

theorem answer_congr {task : AppTask} {mem other : AppMemory} (input : AppInput)
    (huser : SameUser other mem) : answer other task input = answer mem task input := by
  unfold answer
  rw [loop_congr huser.1]

theorem confined (iter : Traversal Bytes UserId) (task : AppTask) (mem : AppMemory) :
    Confined iter task mem where
  changes {input mem' body effect} hperform := by
    rcases input with _ | input
    · exact changes_work hperform
    · obtain ⟨body, -, heq⟩ := Option.map_eq_some_iff.mp hperform
      cases heq
      exact ⟨⟨rfl, rfl⟩, sameAt_of (.inr rfl) (.inr rfl) (.inr ⟨rfl, rfl⟩)⟩
  reads {input mem' body effect} hperform other huser hsame := by
    rcases input with _ | input
    · exact reads_work hperform huser hsame
    · obtain ⟨body, hanswer, heq⟩ := Option.map_eq_some_iff.mp hperform
      cases heq
      refine ⟨other, ?_, ?_⟩
      · rw [perform, answer_congr input huser, hanswer]
        rfl
      · rw [accesses_of_answer hanswer]
        exact List.forall_mem_nil _

/-- A thread that is about to access something has the mutex for it, or is about to look up the
sender of a message. -/
theorem guarded {s : AppThreads} {held : AppThread → List AppMutex} {task : AppTask} {x : AppVar}
    (hlocked : Locked rank Allowed s held) (hops : s.ops t = .task task :: ops)
    (hx : x ∈ task.accesses) :
    (s.owner x.mutex = some t ∧ (x = .idToName → t = .periodicGetOnlineUsers)) ∨
      (t = .periodicGetMessages ∧ x = .idToName) := by
  obtain ⟨after, hok⟩ := hlocked.allowed hops
  rw [hlocked.owner]
  cases task with
  | write s =>
      obtain rfl := List.mem_singleton.mp hx
      exact .inl ⟨List.mem_of_mem_head? hok.1, fun h => by cases h⟩
  | clear =>
      obtain rfl := List.mem_singleton.mp hx
      exact .inl ⟨by simp [AppVar.mutex, hok.2.1], fun _ => hok.1⟩
  | emplace mapping =>
      refine .inl ⟨?_, fun _ => hok.1⟩
      have hname : x.mutex = .name := by
        cases x with
        | nameToId => rfl
        | idToName => rfl
        | console => simp [AppTask.accesses] at hx
      rw [hname, hok.2.1]
      exact List.mem_cons_self
  | showMessage msg => exact .inr ⟨hok.1, List.mem_singleton.mp hx⟩
  | senderName msg => exact .inr ⟨hok.1, List.mem_singleton.mp hx⟩
  | getchar read => cases hx
  | connect targetUser msg => cases hx
  | receive targetUser => cases hx
  | pollUsers => cases hx
  | pollMessages => cases hx
  -- The others access one variable, in a section of its mutex.
  | _ =>
      obtain rfl := List.mem_singleton.mp hx
      exact .inl ⟨by simp [AppVar.mutex, hok.2.1], fun h => by cases h⟩

/-- **The one race.** In every run each access to what the threads share is made with its mutex
locked, but for those of the poll for messages to the senders; so two threads about to access
the same are the two polls, of which the one for online users is about to replace the map of the
senders. What a task accesses is all that it has to do with. -/
theorem races_of_run (hrun : run (step iter) (start username id) events = .ok (s, log)) :
    (∀ t task ops, s.ops t = .task task :: ops → Confined iter task s.shared ∧
      ∀ x ∈ task.accesses,
        s.owner x.mutex = some t ∨ (t = .periodicGetMessages ∧ x = .idToName)) ∧
    ∀ t u task task' ops ops' x, t ≠ u → s.ops t = .task task :: ops →
      s.ops u = .task task' :: ops' → x ∈ task.accesses → x ∈ task'.accesses →
      x = .idToName ∧ ((t = .periodicGetMessages ∧ u = .periodicGetOnlineUsers) ∨
        (t = .periodicGetOnlineUsers ∧ u = .periodicGetMessages)) := by
  obtain ⟨held, hlocked⟩ := locked_of_run hrun
  constructor
  · intro t task ops hops
    exact ⟨confined iter task s.shared, fun x hx => (guarded hlocked hops hx).imp_left And.left⟩
  · intro t u task task' ops ops' x hne ht hu hx hx'
    rcases guarded hlocked ht hx with ⟨hown, hpoll⟩ | ⟨rfl, rfl⟩
    · rcases guarded hlocked hu hx' with ⟨hown', -⟩ | ⟨rfl, rfl⟩
      · exact absurd (Option.some.inj (hown.symm.trans hown')) hne
      · exact ⟨rfl, .inr ⟨hpoll rfl, rfl⟩⟩
    · rcases guarded hlocked hu hx' with ⟨-, hpoll⟩ | ⟨rfl, -⟩
      · exact ⟨rfl, .inl ⟨rfl, hpoll rfl⟩⟩
      · exact absurd rfl hne

/-- The poll for messages has found a sender, and the one for online users is about to empty the
map. -/
theorem races_of_run_two_polls :
    let user : Mcc.OnlineUser := { userId := some 5, username := some [0x42] }
    let online : Mcc.Packet :=
      { respUsers := some { respValue := some 0, onlineUsers := [user] } }
    let msg : Mcc.UserMessage := { userId := some 5, message := some [0x68] }
    let mail : Mcc.Packet := { respRecv := some { respValue := some 0, messages := [msg] } }
    let go : AppThread → Nat → List AppEvent := fun t n => List.replicate n (t, none)
    let events := (.periodicGetOnlineUsers, some (.response online))
      :: go .periodicGetOnlineUsers 14 ++ (.periodicGetMessages, some (.response mail))
      :: go .periodicGetMessages 1
      ++ (.periodicGetOnlineUsers, some (.response { respUsers := some { respValue := some 0 } }))
      :: go .periodicGetOnlineUsers 2
    ∃ s log, run (step (.ascending _ _)) (start [0x41] 7) events = .ok (s, log) ∧
      (s.ops .periodicGetOnlineUsers).head? = some (.task .clear) ∧
      (s.ops .periodicGetMessages).head? = some (.task (.senderName msg)) ∧
      s.owner .name = some .periodicGetOnlineUsers ∧
      ∀ x ∈ AppTask.clear.accesses, x ∈ (AppTask.senderName msg).accesses → x = .idToName := by
  intro user online msg mail go events
  have hok : (run (step (.ascending _ _)) (start [0x41] 7) events).map
        (fun out => ((out.1.ops .periodicGetOnlineUsers).head?,
          (out.1.ops .periodicGetMessages).head?))
      = .ok (some (.task .clear), some (.task (.senderName msg))) := by decide +kernel
  obtain ⟨⟨s, log⟩, hrun, hout⟩ := map_eq_ok.mp hok
  obtain ⟨husers, hmessages⟩ := Prod.mk.inj hout
  obtain ⟨ops, hops⟩ := List.head?_eq_some_iff.mp husers
  obtain ⟨ops', hops'⟩ := List.head?_eq_some_iff.mp hmessages
  obtain ⟨haccesses, hraces⟩ := races_of_run hrun
  have hown := (haccesses _ _ _ hops).2 .idToName List.mem_cons_self
  refine ⟨s, log, hrun, husers, hmessages, hown.resolve_right fun h => ?_, ?_⟩
  · cases h.1
  · exact fun x hx hx' => (hraces _ _ _ _ _ _ x (by decide) hops hops' hx hx').1

end AppThreads

end ChatApp
