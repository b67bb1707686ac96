import ChatApp.Client.Threads
import ChatApp.Protobuf.ChatSessions

set_option autoImplicit false

/-! # The threads of the client, and what is said of its parts

The console and the maps are described by their critical sections alone: a `ConsoleSession`
goes from one section under `m_console_mtx` to the next, a `Session` from one under `name_mtx`
to the next. Every interleaving of the three threads, mutex by mutex, is a run of both
(`console_of_threads`, `sections_of_threads`), so what holds of them holds of the client. Only
`id_to_name_`, which the poll for messages changes without a mutex, may have entries that the
session does not have, or other names in them: empty ones.
-/

namespace ChatApp

open Lib

/-! ## The console -/

/-- The section of the console that a task is. -/
def AppTask.consoleEvent : AppTask → Option ConsoleEvent
  | .write s => some (.write s)
  | .readPrompt read => some (.read (Dialogue.promptOf read.thread))
  | .readChar key _ => some (.typed key)
  | _ => none

namespace AppThreads

def consoleEvent (e : AppEntry) : Option ConsoleEvent := e.output.bind (·.1.consoleEvent)

/-- A thread with these operations is in a read. -/
def inRead : List AppOp → Bool
  | .task (.getchar _) :: _ | .task (.readChar _ _) :: _ => true
  | .lock _ :: ops | .unlock _ :: ops | .task (.write _) :: ops | .task .printNames :: ops =>
      inRead ops
  | _ => false

/-- A session of the console that is where the threads are. -/
structure ShownAs (s : AppThreads) (c : ConsoleSession) : Prop where
  console : c.console = s.shared.console
  reading : c.reading = inRead (s.ops .main)
  screen : c.screen = ConsoleSession.display {} s.shared.cout

variable {iter : Traversal Bytes UserId} {s s' : AppThreads} {held : AppThread → List AppMutex}
  {c : ConsoleSession} {event : AppEvent} {out : Option (AppTask × AppEffect)}
  {task : AppTask} {input : Option AppInput} {mem mem' : AppMemory} {body ops : List AppOp}
  {effect : AppEffect}

theorem inRead_writeCalls (written : List Bytes) (ops : List AppOp) :
    inRead (written.flatMap writeCall ++ ops) = inRead ops := by
  induction written with
  | nil => rfl
  | cons s written ih =>
      rw [List.flatMap_cons, List.append_assoc]
      exact ih

theorem inRead_loop (app : App) (ops : List AppOp) : inRead (loop app ++ ops) = false := by
  rw [loop, List.append_assoc, inRead_writeCalls]
  rfl

/-- The thread that a read returns to is in no read. -/
theorem inRead_resume (app : App) (line : Bytes) (read : AppRead) (ops : List AppOp) :
    inRead (resume app line read ++ ops) = false := by
  unfold resume
  split
  · split
    · rfl
    · exact inRead_loop app ops
    · rfl
  · split_ifs
    · exact inRead_loop app ops
    · rfl
  · split_ifs
    · exact inRead_loop app ops
    · rfl

/-- A task that is no section of the console leaves it alone, and returns no line. -/
theorem console_perform (hperform : perform iter task input mem = some (mem', body, effect))
    (hnone : task.consoleEvent = none) :
    mem'.console = mem.console ∧ mem'.cout = mem.cout ∧ effect.returned = none := by
  rcases input with _ | input
  · cases task with
    | write s => cases hnone
    | readPrompt read => cases hnone
    | readChar key read => cases hnone
    | findUser targetUser =>
        simp only [perform, work] at hperform
        split_ifs at hperform <;> cases hperform <;> exact ⟨rfl, rfl, rfl⟩
    | update respPacket =>
        simp only [perform, work] at hperform
        split_ifs at hperform <;> cases hperform <;> exact ⟨rfl, rfl, rfl⟩
    | showMessage msg =>
        simp only [perform, work] at hperform
        split at hperform <;> cases hperform <;> exact ⟨rfl, rfl, rfl⟩
    | targetId targetUser msg => cases hperform; exact ⟨rfl, rfl, rfl⟩
    | printNames => cases hperform; exact ⟨rfl, rfl, rfl⟩
    | clear => cases hperform; exact ⟨rfl, rfl, rfl⟩
    | emplace mapping => cases hperform; exact ⟨rfl, rfl, rfl⟩
    | senderName msg => cases hperform; exact ⟨rfl, rfl, rfl⟩
    | getchar read => cases hperform
    | connect targetUser msg => cases hperform
    | receive targetUser => cases hperform
    | pollUsers => cases hperform
    | pollMessages => cases hperform
  · obtain ⟨_, -, heq⟩ := Option.map_eq_some_iff.mp hperform
    cases heq
    exact ⟨rfl, rfl, rfl⟩

/-- A task of the thread that reads, but for the sections of the console, is in the same read
or in none. -/
theorem inRead_perform {after : List AppMutex} {locked : List AppMutex}
    (hok : Allowed .main locked task after)
    (hperform : perform iter task input mem = some (mem', body, effect))
    (hnone : task.consoleEvent = none) : inRead (body ++ ops) = inRead (.task task :: ops) := by
  rcases input with _ | input
  · cases task with
    | write s => cases hnone
    | readPrompt read => cases hnone
    | readChar key read => cases hnone
    | findUser targetUser =>
        simp only [perform, work] at hperform
        split_ifs at hperform <;> cases hperform <;> rfl
    | targetId targetUser msg => cases hperform; rfl
    | printNames => cases hperform; exact inRead_writeCalls _ _
    | update respPacket => cases hok.1
    | clear => cases hok.1
    | emplace mapping => cases hok.1
    | showMessage msg => cases hok.1
    | senderName msg => cases hok.1
    | getchar read => cases hperform
    | connect targetUser msg => cases hperform
    | receive targetUser => cases hperform
    | pollUsers => cases hperform
    | pollMessages => cases hperform
  · obtain ⟨_, hanswer, heq⟩ := Option.map_eq_some_iff.mp hperform
    cases heq
    unfold answer at hanswer
    split at hanswer
    · cases hanswer; rfl
    · cases hanswer; rfl
    · cases hanswer
      rw [List.append_assoc, inRead_writeCalls]
      split_ifs
      · rfl
      · exact inRead_loop _ _
    · cases hok.1
    · cases hok.1
    · cases hanswer

/-- What waits for something from outside is no section of the console. -/
theorem consoleEvent_of_answer {input : AppInput} (h : answer mem task input = some body) :
    task.consoleEvent = none := by
  unfold answer at h
  split at h
  · rfl
  · rfl
  · rfl
  · rfl
  · rfl
  · cases h

theorem ops_goOn {P : List AppOp → Prop} {t u : AppThread} (h : P (s.ops u))
    (hself : t = u → P ops) : P ((s.goOn t ops).ops u) := by
  by_cases ht : t = u
  · subst ht
    rw [Threads.goOn_ops_self]
    exact hself rfl
  · rw [Threads.goOn_ops_of_ne s (Ne.symm ht)]
    exact h

/-- What the session of the console gives for a section. -/
structure ReturnsSame (e : AppEntry) (e' : Entry ConsoleSession ConsoleEvent (Option Bytes)) :
    Prop where
  event : consoleEvent e = some e'.input
  returned : e.output.bind (·.2.returned) = e'.output

/-- A step that is no section of the console. -/
theorem ShownAs.stay (hlocked : Locked rank Allowed s held) (h : ShownAs s c)
    (hstep : step iter s event = .ok (s', out)) (hnone : consoleEvent ⟨s, event, out⟩ = none) :
    ShownAs s' c := by
  obtain ⟨t, input⟩ := event
  obtain ⟨m, ops, hops, -, rfl, rfl⟩ | ⟨m, ops, hops, -, rfl, rfl⟩ |
    ⟨task, ops, mem, body, effect, hops, hperform, rfl, rfl⟩ := Threads.step_eq_ok hstep
  · refine ⟨h.console, ?_, h.screen⟩
    refine ops_goOn (P := fun ops => c.reading = inRead ops) h.reading ?_
    rintro rfl
    rw [h.reading, hops]
    rfl
  · refine ⟨h.console, ?_, h.screen⟩
    refine ops_goOn (P := fun ops => c.reading = inRead ops) h.reading ?_
    rintro rfl
    rw [h.reading, hops]
    rfl
  · obtain ⟨hconsole, hcout, -⟩ := console_perform hperform hnone
    refine ⟨h.console.trans hconsole.symm, ?_, h.screen.trans (congrArg _ hcout.symm)⟩
    refine ops_goOn (P := fun ops => c.reading = inRead ops) h.reading ?_
    rintro rfl
    obtain ⟨after, hok⟩ := hlocked.allowed hops
    rw [h.reading, hops, inRead_perform hok hperform hnone]

theorem display_append (screen : Screen UInt8) (out out' : Bytes) :
    ConsoleSession.display screen (out ++ out')
      = ConsoleSession.display (ConsoleSession.display screen out) out' := by
  rw [ConsoleSession.display, List.map_append, Screen.feed_append]
  rfl

/-- **A section of the console.** -/
theorem ShownAs.move (hlocked : Locked rank Allowed s held) (h : ShownAs s c)
    (hstep : step iter s event = .ok (s', out)) {event' : ConsoleEvent}
    (hsome : consoleEvent ⟨s, event, out⟩ = some event') :
    ∃ c', c.step event' = .ok (c', out.bind (·.2.returned)) ∧ ShownAs s' c' := by
  obtain ⟨t, input⟩ := event
  obtain ⟨m, ops, hops, -, rfl, rfl⟩ | ⟨m, ops, hops, -, rfl, rfl⟩ |
    ⟨task, ops, mem, body, effect, hops, hperform, rfl, rfl⟩ := Threads.step_eq_ok hstep
  · cases hsome
  · cases hsome
  obtain ⟨after, hok⟩ := hlocked.allowed hops
  rcases input with _ | input
  · cases task with
    | write str =>
        cases hsome
        cases hperform
        refine ⟨_, rfl, h.console, ?_, ?_⟩
        · refine ops_goOn (P := fun ops => c.reading = inRead ops) h.reading ?_
          rintro rfl
          rw [h.reading, hops]
          rfl
        · show ConsoleSession.display c.screen (c.console.write str) = _
          rw [h.screen, h.console, ← display_append]
          rfl
    | readPrompt read =>
        obtain ⟨rfl, -, -⟩ := hok
        cases hsome
        cases hperform
        have hidle : c.reading = false := by rw [h.reading, hops]; rfl
        refine ⟨_, by rw [ConsoleSession.step, hidle]; rfl, ⟨?_, ?_, ?_⟩⟩
        · show ({ c.console with prompt := Dialogue.promptOf read.thread } : Console) = _
          rw [h.console]
          rfl
        · rw [Threads.goOn_ops_self]
          rfl
        · show ConsoleSession.display c.screen (Dialogue.promptOf read.thread) = _
          rw [h.screen, ← display_append]
          rfl
    | readChar key read =>
        obtain ⟨rfl, -, -⟩ := hok
        cases hsome
        have hreading : c.reading = true := by rw [h.reading, hops]; rfl
        have hperform : work iter s.shared (.readChar key read) = some (mem, body, effect) :=
          hperform
        simp only [work] at hperform
        rcases hread : s.shared.console.readChar key.toNat with ⟨console, printed, returned⟩
        have hstep' : c.step (.typed key) = .ok
            ({ console := console
               reading := returned.isNone
               screen := ConsoleSession.display c.screen printed }, returned) := by
          rw [ConsoleSession.step, if_pos hreading, h.console, hread]
          rfl
        rw [hread] at hperform
        rcases returned with _ | line
        · cases hperform
          refine ⟨_, hstep', ⟨rfl, ?_, ?_⟩⟩
          · rw [Threads.goOn_ops_self]
            rfl
          · show ConsoleSession.display c.screen printed = _
            rw [h.screen, ← display_append]
            rfl
        · cases hperform
          refine ⟨_, hstep', ⟨rfl, ?_, ?_⟩⟩
          · rw [Threads.goOn_ops_self]
            exact (inRead_resume _ _ _ _).symm
          · show ConsoleSession.display c.screen printed = _
            rw [h.screen, ← display_append]
            rfl
    | _ => cases hsome
  · obtain ⟨_, hanswer, -⟩ := Option.map_eq_some_iff.mp hperform
    have hnone : consoleEvent ⟨s, (t, some input), some (task, effect)⟩ = none :=
      consoleEvent_of_answer hanswer
    rw [hnone] at hsome
    cases hsome

variable {username : Bytes} {id : UserId} {events : List AppEvent} {log : List AppEntry}

/-- **The console of the threads.** Every run of the threads is a run of a session of the console,
on the sections in the order in which the threads come to them: the reads return the same
lines, and the terminal shows what it shows. -/
theorem console_of_threads (hrun : run (step iter) (start username id) events = .ok (s, log)) :
    ∃ c log', run ConsoleSession.step {} (log.filterMap consoleEvent) = .ok (c, log') ∧
      ShownAs s c ∧
      log.filterMap (fun e => e.output.bind (·.2.returned)) = log'.filterMap (·.output) := by
  obtain ⟨c, log', hrun', hshown, hlog⟩ :=
    run_simulation_entries ConsoleSession.step consoleEvent (fun s c _ => ShownAs s c) ReturnsSame
      (fun _ _ _ _ _ _ hshown ⟨_, hlocked⟩ hstep hnone => hshown.stay hlocked hstep hnone)
      (fun _ _ _ _ _ _ _ hshown ⟨_, hlocked⟩ hstep hsome => by
        obtain ⟨c', hstep', hshown'⟩ := hshown.move hlocked hstep hsome
        exact ⟨c', _, hstep', hshown', hsome, rfl⟩)
      (⟨rfl, (inRead_loop _ []).symm, rfl⟩ : ShownAs (start username id) {})
      (along_locked iter username id events) hrun
  refine ⟨c, log', hrun', hshown, ?_⟩
  refine filterMap_eq_of_forall₂ (hlog.imp fun e e' hsame => hsame.returned) fun e he hnone => ?_
  obtain ⟨s', hstep⟩ := step_of_mem_log hrun he
  obtain ⟨m, ops, -, -, -, hout⟩ | ⟨m, ops, -, -, -, hout⟩ |
    ⟨task, ops, mem, body, effect, -, hperform, -, hout⟩ := Threads.step_eq_ok hstep
  · rw [hout, Option.bind_none]
  · rw [hout, Option.bind_none]
  · rw [consoleEvent, hout, Option.bind_some] at hnone
    rw [hout, Option.bind_some]
    exact (console_perform hperform hnone).2.2

/-- A poll writes while a line is being typed. -/
theorem console_of_threads_one_line :
    let go : AppThread → Nat → List AppEvent := fun t n => List.replicate n (t, none)
    let key : UInt8 → List AppEvent := fun key => (.main, some (.key key)) :: go .main 3
    let negative : Mcc.Packet := { respUsers := some { respValue := some 1 } }
    let events := go .main 12 ++ key 0x32
      ++ (.periodicGetOnlineUsers, some (.response negative)) :: go .periodicGetOnlineUsers 3
      ++ key 0x0A
    ∃ s log, run (step (.ascending _ _)) (start [0x41] 7) events = .ok (s, log) ∧
      log.filterMap (fun e => e.output.bind (·.2.returned)) = [[0x32]] ∧
      ∃ c log', run ConsoleSession.step {} (log.filterMap consoleEvent) = .ok (c, log') ∧
        ShownAs s c ∧
        log.filterMap (fun e => e.output.bind (·.2.returned)) = log'.filterMap (·.output) := by
  intro go key negative events
  have hok : (run (step (.ascending _ _)) (start [0x41] 7) events).map
      (fun out => out.2.filterMap fun e => e.output.bind (·.2.returned))
      = .ok [[0x32]] := by decide +kernel
  obtain ⟨⟨s, log⟩, hrun, hlines⟩ := map_eq_ok.mp hok
  exact ⟨s, log, hrun, hlines, console_of_threads hrun⟩

/-! ## The maps -/

/-- Where the thread with these operations is, for a session. -/
def phaseOf : List AppOp → Phase
  | .task (.readPrompt read) :: _ | .task (.getchar read) :: _ | .task (.readChar _ read) :: _ =>
      Dialogue.phaseOf read.thread
  | .task (.connect targetUser _) :: _ | .task (.targetId targetUser _) :: _ =>
      .chatting targetUser
  | .task (.receive targetUser) :: _ => .waiting targetUser
  | .lock _ :: ops | .unlock _ :: ops | .task (.write _) :: ops | .task .printNames :: ops =>
      phaseOf ops
  | _ => .prompt

/-- What a task is for the session: a line where it is looked at, or a response. The line `x` is
looked at without the mutex, and so is a negative response to the poll. -/
def sessionEvent (e : AppEntry) : Option SessionEvent :=
  match e.output, e.input.2 with
  | some (.readChar _ read, effect), _ =>
      if read ≠ .getUserCommand ∧ effect.returned = some (text "x") then
        some (.typed (text "x"))
      else none
  | some (.findUser line, _), _ => some (.typed line)
  | some (.targetId _ msg, _), _ => some (.typed msg)
  | some (.update respPacket, _), _ => some (.polled respPacket)
  | some (.receive _, _), some (.response respPacket) => some (.responded respPacket)
  | some (.pollUsers, _), some (.response respPacket) =>
      if ((respPacket.respUsers.getD {}).respValue).getD 0 ≠ 0 then some (.polled respPacket)
      else none
  | _, _ => none

/-- `id_to_name_` when a thread with these operations has filled it. -/
def filled : List AppOp → UnorderedMap UserId Bytes → UnorderedMap UserId Bytes
  | .task .clear :: ops, _ => filled ops ∅
  | .task (.emplace mapping) :: ops, m => filled ops (App.emplace m mapping)
  | .lock _ :: ops, m | .unlock _ :: ops, m | .task (.write _) :: ops, m
  | .task .printNames :: ops, m => filled ops m
  | _, m => m

/-- The map is the other one, but for entries with an empty name. -/
def UpToEmpty (m m' : UnorderedMap UserId Bytes) : Prop :=
  ∀ id : UserId, m[id]? = m'[id]? ∨ m[id]? = some []

/-- Two applications that are the same but for `id_to_name_`. -/
structure SameNames (app app' : App) : Prop where
  nameToId : app.nameToId = app'.nameToId
  username : app.username = app'.username
  id : app.id = app'.id

/-- A session that is where the threads are. `id_to_name_` is compared as it is when the poll for
online users has filled it. -/
structure SeenBy (s : AppThreads) (ss : Session) : Prop where
  names : SameNames ss.app s.shared.app
  idToName : UpToEmpty (filled (s.ops .periodicGetOnlineUsers) s.shared.app.idToName)
    ss.app.idToName
  phase : ss.phase = phaseOf (s.ops .main)

theorem UpToEmpty.refl (m : UnorderedMap UserId Bytes) : UpToEmpty m m := fun _ => .inl rfl

theorem UpToEmpty.trans {m m' m'' : UnorderedMap UserId Bytes} (h : UpToEmpty m m')
    (h' : UpToEmpty m' m'') : UpToEmpty m m'' := by
  intro id
  rcases h id with heq | hempty
  · rw [heq]
    exact h' id
  · exact .inr hempty

/-- An entry that is there is not changed by `emplace`, also if its name is empty. -/
theorem UpToEmpty.emplace {m m' : UnorderedMap UserId Bytes} (h : UpToEmpty m m')
    (mapping : Bytes × UserId) :
    UpToEmpty (App.emplace m mapping) (App.emplace m' mapping) := by
  intro id
  rw [App.getElem?_emplace, App.getElem?_emplace]
  rcases h id with heq | hempty
  · exact .inl (by rw [heq])
  · exact .inr (by rw [hempty]; rfl)

theorem UpToEmpty.filled {m m' : UnorderedMap UserId Bytes} (h : UpToEmpty m m')
    (ops : List AppOp) : UpToEmpty (AppThreads.filled ops m) (AppThreads.filled ops m') := by
  induction ops generalizing m m' with
  | nil => exact h
  | cons op ops ih =>
      cases op with
      | lock mutex => exact ih h
      | unlock mutex => exact ih h
      | task task =>
          cases task with
          | clear => exact .refl _
          | emplace mapping => exact ih (h.emplace mapping)
          | write str => exact ih h
          | printNames => exact ih h
          | _ => exact h

/-- The subscript enters an empty name at most. -/
theorem UpToEmpty.subscript (m : UnorderedMap UserId Bytes) (id : UserId) :
    UpToEmpty (m.subscript id fun name => name) m := by
  intro id'
  by_cases hid : id = id'
  · subst hid
    rcases hname : m[id]? with _ | name
    · refine .inr ?_
      rw [UnorderedMap.subscript, UnorderedMap.getElem?_insert_same, hname]
      rfl
    · exact .inl (m.getElem?_subscript_of_some _ hname)
  · exact .inl (m.getElem?_subscript_of_ne _ hid)

theorem filled_writeCalls (written : List Bytes) (ops : List AppOp)
    (m : UnorderedMap UserId Bytes) :
    filled (written.flatMap writeCall ++ ops) m = filled ops m := by
  induction written with
  | nil => rfl
  | cons s written ih =>
      rw [List.flatMap_cons, List.append_assoc]
      exact ih

/-- The section of the poll for online users fills the map from the list. -/
theorem filled_emplaces (mappings : List (Bytes × UserId)) (ops : List AppOp)
    (m : UnorderedMap UserId Bytes) :
    filled (.task .clear :: mappings.map (fun mapping => .task (.emplace mapping)) ++ ops) m
      = filled ops (mappings.foldl App.emplace ∅) := by
  show filled (mappings.map (fun mapping => .task (.emplace mapping)) ++ ops) ∅ = _
  generalize (∅ : UnorderedMap UserId Bytes) = m
  induction mappings generalizing m with
  | nil => rfl
  | cons mapping mappings ih => exact ih (App.emplace m mapping)

theorem phaseOf_writeCalls (written : List Bytes) (ops : List AppOp) :
    phaseOf (written.flatMap writeCall ++ ops) = phaseOf ops := by
  induction written with
  | nil => rfl
  | cons s written ih =>
      rw [List.flatMap_cons, List.append_assoc]
      exact ih

theorem phaseOf_loop (app : App) (ops : List AppOp) : phaseOf (loop app ++ ops) = .prompt := by
  rw [loop, List.append_assoc, phaseOf_writeCalls]
  rfl

/-- A read of a command, or of a line that is not `x`, does not change the phase. -/
theorem phaseOf_resume (app : App) {line : Bytes} {read : AppRead}
    (hline : read ≠ .getUserCommand → line ≠ text "x") (ops : List AppOp) :
    phaseOf (resume app line read ++ ops) = Dialogue.phaseOf read.thread := by
  cases read with
  | getUserCommand =>
      simp only [resume]
      split
      · rfl
      · exact phaseOf_loop app ops
      · rfl
  | askTargetUser =>
      rw [resume, if_neg (hline (by simp))]
      rfl
  | chatting targetUser =>
      rw [resume, if_neg (hline (by simp))]
      rfl

/-- The line `x` leads back to the loop. -/
theorem phaseOf_resume_exit (app : App) {read : AppRead} (hread : read ≠ .getUserCommand)
    (ops : List AppOp) : phaseOf (resume app (text "x") read ++ ops) = .prompt := by
  cases read with
  | getUserCommand => exact absurd rfl hread
  | askTargetUser =>
      rw [resume, if_pos rfl]
      exact phaseOf_loop app ops
  | chatting targetUser =>
      rw [resume, if_pos rfl]
      exact phaseOf_loop app ops

/-- A task of a thread that is nothing for the session: what there is to tell of it. -/
structure Unseen (t : AppThread) (task : AppTask) (mem mem' : AppMemory) (body : List AppOp)
    (effect : AppEffect) : Prop where
  names : SameNames mem.app mem'.app
  request : effect.request = none
  phase : t = .main → ∀ ops, phaseOf (body ++ ops) = phaseOf (.task task :: ops)
  own : t = .periodicGetOnlineUsers → ∀ ops,
    filled (body ++ ops) mem'.app.idToName = filled (.task task :: ops) mem.app.idToName
  others : t ≠ .periodicGetOnlineUsers → UpToEmpty mem'.app.idToName mem.app.idToName

/-- A task of the thread that talks to the user changes no name. -/
theorem Unseen.of_main (happ : mem'.app = mem.app) (hrequest : effect.request = none)
    (hphase : ∀ ops, phaseOf (body ++ ops) = phaseOf (.task task :: ops)) :
    Unseen .main task mem mem' body effect where
  names := by rw [happ]; exact ⟨rfl, rfl, rfl⟩
  request := hrequest
  phase _ := hphase
  own h := by cases h
  others _ := by rw [happ]; exact .refl _

theorem Unseen.of_users (hnames : SameNames mem.app mem'.app) (hrequest : effect.request = none)
    (hfilled : ∀ ops,
      filled (body ++ ops) mem'.app.idToName = filled (.task task :: ops) mem.app.idToName) :
    Unseen .periodicGetOnlineUsers task mem mem' body effect where
  names := hnames
  request := hrequest
  phase h := by cases h
  own _ := hfilled
  others h := absurd rfl h

theorem Unseen.of_messages (hnames : SameNames mem.app mem'.app)
    (hrequest : effect.request = none) (hids : UpToEmpty mem'.app.idToName mem.app.idToName) :
    Unseen .periodicGetMessages task mem mem' body effect where
  names := hnames
  request := hrequest
  phase h := by cases h
  own h := by cases h
  others _ := hids

theorem SameNames.refl (app : App) : SameNames app app := ⟨rfl, rfl, rfl⟩

/-- **A task that is nothing for the session.** -/
theorem perform_unseen {t : AppThread} {locked after : List AppMutex}
    (hok : Allowed t locked task after)
    (hperform : perform iter task input mem = some (mem', body, effect))
    (hnone : sessionEvent ⟨s, (t, input), some (task, effect)⟩ = none) :
    Unseen t task mem mem' body effect := by
  rcases input with _ | input
  · cases task with
    | write str =>
        cases hperform
        exact ⟨.refl _, rfl, fun _ _ => rfl, fun _ _ => rfl, fun _ => .refl _⟩
    | readPrompt read =>
        obtain ⟨rfl, -, -⟩ := hok
        cases hperform
        exact .of_main rfl rfl fun _ => rfl
    | readChar key read =>
        obtain ⟨rfl, -, -⟩ := hok
        simp only [perform, work] at hperform
        split at hperform
        · cases hperform
          exact .of_main rfl rfl fun _ => rfl
        · next line _ =>
          cases hperform
          have hline : read ≠ .getUserCommand → line ≠ text "x" := by
            rintro hread rfl
            simp [sessionEvent, hread] at hnone
          exact .of_main rfl rfl fun ops => phaseOf_resume _ hline ops
    | printNames =>
        cases hperform
        exact ⟨.refl _, rfl, fun _ ops => phaseOf_writeCalls _ ops,
          fun _ ops => filled_writeCalls _ ops _, fun _ => .refl _⟩
    | clear =>
        obtain ⟨rfl, -, -⟩ := hok
        cases hperform
        exact .of_users ⟨rfl, rfl, rfl⟩ rfl fun _ => rfl
    | emplace mapping =>
        obtain ⟨rfl, -, -⟩ := hok
        cases hperform
        exact .of_users ⟨rfl, rfl, rfl⟩ rfl fun _ => rfl
    | showMessage msg =>
        obtain ⟨rfl, -, -⟩ := hok
        simp only [perform, work] at hperform
        split at hperform <;> cases hperform <;> exact .of_messages (.refl _) rfl (.refl _)
    | senderName msg =>
        obtain ⟨rfl, -, -⟩ := hok
        cases hperform
        exact .of_messages ⟨rfl, rfl, rfl⟩ rfl (.subscript _ _)
    | findUser targetUser => cases hnone
    | targetId targetUser msg => cases hnone
    | update respPacket => cases hnone
    | getchar read => cases hperform
    | connect targetUser msg => cases hperform
    | receive targetUser => cases hperform
    | pollUsers => cases hperform
    | pollMessages => cases hperform
  · obtain ⟨_, hanswer, heq⟩ := Option.map_eq_some_iff.mp hperform
    cases heq
    unfold answer at hanswer
    split at hanswer
    · obtain ⟨rfl, -, -⟩ := hok
      cases hanswer
      exact .of_main rfl rfl fun _ => rfl
    · obtain ⟨rfl, -, -⟩ := hok
      cases hanswer
      exact .of_main rfl rfl fun _ => rfl
    · cases hnone
    · obtain ⟨rfl, -, -⟩ := hok
      refine .of_users (.refl _) rfl fun ops => ?_
      split_ifs at hanswer <;> cases hanswer <;> rfl
    · obtain ⟨rfl, -, -⟩ := hok
      exact .of_messages (.refl _) rfl (.refl _)
    · cases hanswer

/-- A session after one of its events, when the thread `t` has done the task that the event is. -/
structure Follows (iter : Traversal Bytes UserId) (t : AppThread) (ss : Session)
    (event : SessionEvent) (mem mem' : AppMemory) (ops : List AppOp) (effect : AppEffect) :
    Prop where
  names : SameNames (ss.next iter event).1.app mem'.app
  phase : t = .main → (ss.next iter event).1.phase = phaseOf ops
  other : t ≠ .main → (ss.next iter event).1.phase = ss.phase
  own : t = .periodicGetOnlineUsers →
    UpToEmpty (filled ops mem'.app.idToName) (ss.next iter event).1.app.idToName
  kept : t ≠ .periodicGetOnlineUsers → mem'.app.idToName = mem.app.idToName ∧
    (ss.next iter event).1.app.idToName = ss.app.idToName
  request : effect.request = (ss.next iter event).2.map ChatLine.reqPacket

theorem Follows.of_main {ss : Session} {event : SessionEvent} (ss' : Session)
    (line : Option ChatLine) (hnext : ss.next iter event = (ss', line))
    (hnames : SameNames ss'.app mem'.app) (hphase : ss'.phase = phaseOf ops)
    (hids : mem'.app.idToName = mem.app.idToName) (hids' : ss'.app.idToName = ss.app.idToName)
    (hrequest : effect.request = line.map ChatLine.reqPacket) :
    Follows iter .main ss event mem mem' ops effect := by
  have hsession : (ss.next iter event).1 = ss' := by rw [hnext]
  have hline : (ss.next iter event).2 = line := by rw [hnext]
  constructor
  · rwa [hsession]
  · exact fun _ => by rwa [hsession]
  · exact fun h => absurd rfl h
  · exact fun h => by cases h
  · exact fun _ => ⟨hids, by rwa [hsession]⟩
  · rwa [hline]

theorem Follows.of_users {ss : Session} {respPacket : Mcc.Packet}
    (hnames : SameNames (ss.app.updateOnlineUsers iter respPacket).1 mem'.app)
    (hids : UpToEmpty (filled ops mem'.app.idToName)
      (ss.app.updateOnlineUsers iter respPacket).1.idToName)
    (hrequest : effect.request = none) :
    Follows iter .periodicGetOnlineUsers ss (.polled respPacket) mem mem' ops effect where
  names := hnames
  phase h := by cases h
  other _ := rfl
  own _ := hids
  kept h := absurd rfl h
  request := hrequest

theorem SameNames.isOnline {app app' : App} (h : SameNames app app') (targetUser : Bytes) :
    app.isOnline targetUser = app'.isOnline targetUser := by
  rw [App.isOnline, App.isOnline, h.nameToId]

/-- **A section under the mutex of the names**, or what stands for one. -/
theorem perform_seen {t : AppThread} {ss : Session} {locked after : List AppMutex}
    {event' : SessionEvent} (hok : Allowed t locked task after)
    (hperform : perform iter task input mem = some (mem', body, effect))
    (hsome : sessionEvent ⟨s, (t, input), some (task, effect)⟩ = some event')
    (hnames : SameNames ss.app mem.app)
    (hids : t = .periodicGetOnlineUsers →
      UpToEmpty (filled (.task task :: ops) mem.app.idToName) ss.app.idToName)
    (hphase : t = .main → ss.phase = phaseOf (.task task :: ops)) :
    Follows iter t ss event' mem mem' (body ++ ops) effect := by
  rcases input with _ | input
  · cases task with
    | readChar key read =>
        obtain ⟨rfl, -, -⟩ := hok
        have hphase : ss.phase = Dialogue.phaseOf read.thread := hphase rfl
        simp only [sessionEvent] at hsome
        split_ifs at hsome with hexit
        cases hsome
        simp only [perform, work] at hperform
        split at hperform
        · cases hperform
          cases hexit.2
        · next line _ =>
          cases hperform
          obtain rfl : line = text "x" := Option.some.inj hexit.2
          cases read with
          | getUserCommand => exact absurd rfl hexit.1
          | askTargetUser =>
              have hprompt : ss.phase = .prompt := hphase
              refine .of_main ss none ?_ hnames ?_ rfl rfl rfl
              · simp [Session.next, hprompt]
              · exact hprompt.trans (phaseOf_resume_exit mem.app hexit.1 ops).symm
          | chatting targetUser =>
              have hchat : ss.phase = .chatting targetUser := hphase
              refine .of_main { ss with phase := .prompt } none ?_ hnames ?_ rfl rfl rfl
              · simp [Session.next, hchat]
              · exact (phaseOf_resume_exit mem.app hexit.1 ops).symm
    | findUser line =>
        obtain ⟨rfl, -, -, hx⟩ := hok
        have hprompt : ss.phase = .prompt := hphase rfl
        cases hsome
        simp only [perform, work] at hperform
        split_ifs at hperform with honline
        · cases hperform
          refine .of_main { ss with phase := .chatting line } none ?_ hnames rfl rfl rfl rfl
          simp [Session.next, hprompt, hx, hnames.isOnline, honline]
        · cases hperform
          refine .of_main ss none ?_ hnames hprompt rfl rfl rfl
          simp [Session.next, hprompt, hnames.isOnline, honline]
    | targetId targetUser msg =>
        obtain ⟨rfl, -, -, hx⟩ := hok
        have hchat : ss.phase = .chatting targetUser := hphase rfl
        cases hsome
        cases hperform
        refine .of_main _ _ (Session.next_typed_of_chatting hchat hx) ?_ rfl rfl rfl ?_
        · refine ⟨?_, hnames.username, hnames.id⟩
          simp only [App.chatRequest, hnames.nameToId]
        · simp only [App.chatRequest, Option.map_some, hnames.nameToId, hnames.id]
    | update respPacket =>
        obtain ⟨rfl, -, -, hpositive⟩ := hok
        cases hsome
        simp only [perform, work] at hperform
        by_cases hsame : App.newNameToId respPacket = mem.app.nameToId
        · rw [if_pos hsame] at hperform
          cases hperform
          have hunchanged : (ss.app.updateOnlineUsers iter respPacket).1 = ss.app :=
            App.updateOnlineUsers_of_same iter (.inr (hsame.trans hnames.nameToId.symm))
          refine .of_users ?_ ?_ rfl
          · rwa [hunchanged]
          · rw [hunchanged]
            exact hids rfl
        · rw [if_neg hsame] at hperform
          cases hperform
          have hnew : App.newNameToId respPacket ≠ ss.app.nameToId := fun h =>
            hsame (h.trans hnames.nameToId)
          have hchanged := App.updateOnlineUsers_of_new iter hpositive hnew
          refine .of_users ?_ ?_ rfl
          · rw [hchanged]
            exact ⟨rfl, hnames.username, hnames.id⟩
          · rw [hchanged, List.append_assoc, filled_emplaces]
            split_ifs <;> exact .refl _
    | _ => cases hsome
  · obtain ⟨_, hanswer, heq⟩ := Option.map_eq_some_iff.mp hperform
    cases heq
    unfold answer at hanswer
    split at hanswer
    · cases hsome
    · cases hsome
    · next targetUser respPacket =>
      obtain ⟨rfl, -, -⟩ := hok
      have hwait : ss.phase = .waiting targetUser := hphase rfl
      cases hsome
      have hbody := Option.some.inj hanswer
      rw [← hbody, List.append_assoc]
      by_cases hgoes : (App.chatVerdict respPacket).1 = true
      · refine .of_main { ss with phase := .chatting targetUser } none ?_ hnames ?_ rfl rfl rfl
        · simp [Session.next, hwait, hgoes]
        · rw [phaseOf_writeCalls, if_pos hgoes]
          rfl
      · refine .of_main { ss with phase := .prompt } none ?_ hnames ?_ rfl rfl rfl
        · simp [Session.next, hwait, hgoes]
        · rw [phaseOf_writeCalls, if_neg hgoes]
          exact (phaseOf_loop _ _).symm
    · next respPacket =>
      obtain ⟨rfl, -, -⟩ := hok
      simp only [sessionEvent] at hsome
      split_ifs at hsome with hnegative
      cases hsome
      have hunchanged : (ss.app.updateOnlineUsers iter respPacket).1 = ss.app :=
        App.updateOnlineUsers_of_same iter (.inl hnegative)
      rw [if_pos hnegative] at hanswer
      cases hanswer
      refine .of_users ?_ ?_ rfl
      · rwa [hunchanged]
      · rw [hunchanged]
        exact hids rfl
    · cases hsome
    · cases hanswer

/-- A mutex that is locked or unlocked is nothing for the session. -/
theorem SeenBy.goOn {ss : Session} (h : SeenBy s ss) {t : AppThread} {op : AppOp} {o : AppMutex}
    {owner : Option AppThread} (hops : s.ops t = op :: ops)
    (hphase : phaseOf ops = phaseOf (op :: ops))
    (hfilled : ∀ m, filled ops m = filled (op :: ops) m) :
    SeenBy ((s.setOwner o owner).goOn t ops) ss := by
  refine ⟨h.names, ?_, ?_⟩
  · refine ops_goOn (P := fun ops => UpToEmpty (filled ops s.shared.app.idToName) _) h.idToName ?_
    rintro rfl
    rw [hfilled, ← hops]
    exact h.idToName
  · refine ops_goOn (P := fun ops => ss.phase = AppThreads.phaseOf ops) h.phase ?_
    rintro rfl
    rw [hphase, ← hops]
    exact h.phase

/-- A step that is nothing for the session. -/
theorem SeenBy.stay {ss : Session} (hlocked : Locked rank Allowed s held) (h : SeenBy s ss)
    (hstep : step iter s event = .ok (s', out)) (hnone : sessionEvent ⟨s, event, out⟩ = none) :
    SeenBy s' ss := by
  obtain ⟨t, input⟩ := event
  obtain ⟨m, ops, hops, -, rfl, rfl⟩ | ⟨m, ops, hops, -, rfl, rfl⟩ |
    ⟨task, ops, mem, body, effect, hops, hperform, rfl, rfl⟩ := Threads.step_eq_ok hstep
  · exact h.goOn hops rfl fun _ => rfl
  · exact h.goOn hops rfl fun _ => rfl
  · obtain ⟨after, hok⟩ := hlocked.allowed hops
    have hunseen := perform_unseen hok hperform hnone
    refine ⟨⟨h.names.nameToId.trans hunseen.names.nameToId,
      h.names.username.trans hunseen.names.username, h.names.id.trans hunseen.names.id⟩, ?_, ?_⟩
    · by_cases ht : t = .periodicGetOnlineUsers
      · subst ht
        have hfilled := hunseen.own rfl ops
        rw [Threads.goOn_ops_self]
        show UpToEmpty (filled (body ++ ops) mem.app.idToName) ss.app.idToName
        rw [hfilled, ← hops]
        exact h.idToName
      · rw [Threads.goOn_ops_of_ne _ (Ne.symm ht)]
        exact ((hunseen.others ht).filled _).trans h.idToName
    · refine ops_goOn (P := fun ops => ss.phase = AppThreads.phaseOf ops) h.phase ?_
      rintro rfl
      rw [h.phase, hops, hunseen.phase rfl ops]

/-- **A step that is one of the session's.** -/
theorem SeenBy.move {ss : Session} (hlocked : Locked rank Allowed s held) (h : SeenBy s ss)
    (hstep : step iter s event = .ok (s', out)) {event' : SessionEvent}
    (hsome : sessionEvent ⟨s, event, out⟩ = some event') :
    SeenBy s' (ss.next iter event').1 ∧
      out.bind (·.2.request) = (ss.next iter event').2.map ChatLine.reqPacket := by
  obtain ⟨t, input⟩ := event
  obtain ⟨m, ops, hops, -, rfl, rfl⟩ | ⟨m, ops, hops, -, rfl, rfl⟩ |
    ⟨task, ops, mem, body, effect, hops, hperform, rfl, rfl⟩ := Threads.step_eq_ok hstep
  · cases hsome
  · cases hsome
  · obtain ⟨after, hok⟩ := hlocked.allowed hops
    have hids : t = .periodicGetOnlineUsers →
        UpToEmpty (filled (.task task :: ops) s.shared.app.idToName) ss.app.idToName := by
      rintro rfl
      rw [← hops]
      exact h.idToName
    have hphase : t = .main → ss.phase = AppThreads.phaseOf (.task task :: ops) := by
      rintro rfl
      rw [h.phase, hops]
    have hfollows := perform_seen hok hperform hsome h.names hids hphase
    refine ⟨⟨hfollows.names, ?_, ?_⟩, hfollows.request⟩
    · by_cases ht : t = .periodicGetOnlineUsers
      · subst ht
        rw [Threads.goOn_ops_self]
        exact hfollows.own rfl
      · obtain ⟨hmem, hsession⟩ := hfollows.kept ht
        rw [Threads.goOn_ops_of_ne _ (Ne.symm ht), hsession]
        show UpToEmpty (filled _ mem.app.idToName) ss.app.idToName
        rw [hmem]
        exact h.idToName
    · by_cases ht : t = .main
      · subst ht
        rw [Threads.goOn_ops_self]
        exact hfollows.phase rfl
      · rw [Threads.goOn_ops_of_ne _ (Ne.symm ht)]
        exact (hfollows.other ht).trans h.phase

/-- What the session gives for a step. -/
structure RequestsSame (e : AppEntry) (e' : Entry Session SessionEvent (Option ChatLine)) :
    Prop where
  event : sessionEvent e = some e'.input
  request : e.output.bind (·.2.request) = e'.output.map ChatLine.reqPacket

/-- **The session of the threads.** Every run of the threads is a run of a session, on the lines
and the responses in the order in which the threads look at them with the mutex of the names
locked: the phase, `name_to_id_` and, up to entries with an empty name, `id_to_name_` are the
session's, and the requests are, in its order. -/
theorem sections_of_threads (hrun : run (step iter) (start username id) events = .ok (s, log)) :
    ∃ ss log', run (Session.step iter) (Session.start username id) (log.filterMap sessionEvent)
        = .ok (ss, log') ∧ SeenBy s ss ∧
      log.filterMap (fun e => e.output.bind (·.2.request))
        = log'.filterMap fun e => e.output.map ChatLine.reqPacket := by
  obtain ⟨ss, log', hrun', hseen, hlog⟩ :=
    run_simulation_entries (Session.step iter) sessionEvent (fun s ss _ => SeenBy s ss)
      RequestsSame
      (fun _ _ _ _ _ _ hseen ⟨_, hlocked⟩ hstep hnone => hseen.stay hlocked hstep hnone)
      (fun _ ss _ _ _ _ event' hseen ⟨_, hlocked⟩ hstep hsome =>
        ⟨_, _, rfl, (hseen.move hlocked hstep hsome).1, hsome, (hseen.move hlocked hstep hsome).2⟩)
      (⟨⟨rfl, rfl, rfl⟩, .refl _, (phaseOf_loop _ []).symm⟩ :
        SeenBy (start username id) (Session.start username id))
      (along_locked iter username id events) hrun
  refine ⟨ss, log', hrun', hseen, ?_⟩
  refine filterMap_eq_of_forall₂ (hlog.imp fun e e' hsame => hsame.request) fun e he hnone => ?_
  obtain ⟨s', hstep⟩ := step_of_mem_log hrun he
  obtain ⟨held, hlocked⟩ := (along_iff hrun).mp (along_locked iter username id events) e he
  obtain ⟨m, ops, -, -, -, hout⟩ | ⟨m, ops, -, -, -, hout⟩ |
    ⟨task, ops, mem, body, effect, hops, hperform, -, hout⟩ := Threads.step_eq_ok hstep
  · rw [hout, Option.bind_none]
  · rw [hout, Option.bind_none]
  · obtain ⟨before, ⟨t, input⟩, output⟩ := e
    obtain rfl : output = some (task, effect) := hout
    obtain ⟨after, hok⟩ := hlocked.allowed hops
    exact (perform_unseen hok hperform hnone).request

/-- A user comes online while a name is typed, and a line is sent to him. -/
theorem sections_of_threads_one_line :
    let go : AppThread → Nat → List AppEvent := fun t n => List.replicate n (t, none)
    let key : UInt8 → List AppEvent := fun key => (.main, some (.key key)) :: go .main 3
    let online : AppEvent :=
      (.periodicGetOnlineUsers, some (.response (Session.listsOne 5 [0x42])))
    let events := go .main 12 ++ key 0x32 ++ key 0x0A ++ go .main 3
      ++ online :: go .periodicGetOnlineUsers 2 ++ key 0x42 ++ go .periodicGetOnlineUsers 6
      ++ key 0x0A ++ go .main 6 ++ key 0x68 ++ key 0x0A
      ++ (.main, some .connected) :: go .main 2
    ∃ s log, run (step (.ascending _ _)) (start [0x41] 7) events = .ok (s, log) ∧
      log.filterMap (fun e => e.output.bind (·.2.request)) = [App.sendRequest 7 5 [0x68]] ∧
      ∃ ss log', run (Session.step (.ascending _ _)) (Session.start [0x41] 7)
          (log.filterMap sessionEvent) = .ok (ss, log') ∧ SeenBy s ss ∧
        log.filterMap (fun e => e.output.bind (·.2.request))
          = log'.filterMap fun e => e.output.map ChatLine.reqPacket := by
  intro go key online events
  have hok : (run (step (.ascending _ _)) (start [0x41] 7) events).map
      (fun out => out.2.filterMap fun e => e.output.bind (·.2.request))
      = .ok [App.sendRequest 7 5 [0x68]] := by decide +kernel
  obtain ⟨⟨s, log⟩, hrun, hrequests⟩ := map_eq_ok.mp hok
  exact ⟨s, log, hrun, hrequests, sections_of_threads hrun⟩

end AppThreads

end ChatApp
