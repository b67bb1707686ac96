import ChatApp.ByteProtocol.Delivery
import ChatApp.ByteProtocol.RoundTrip
import ChatApp.ByteProtocol.Shape
import ChatApp.Server.Mailboxes

set_option autoImplicit false

/-! # The server and its clients are mailboxes

A database stands for mailboxes (`Represents`), and what a client learns from a response for
an answer (`Answers`). One request is one action (`Represents.reply`), so a run of any number of
clients, their requests in any order, is a run of the mailboxes (`refines`). Two things are not the
mailboxes': of several users with one name a Users response keeps one, and what a client makes
of a Recv request under an id that nobody holds is left open.
-/

namespace ChatApp

open Lib Database MccServer

/-- A request, as what is asked of the mailboxes. -/
def Request.action : Request → Mailboxes.Action Bytes Bytes
  | .register username => .join username
  | .users id => .look id.toNat
  | .send sourceId targetId msg => .send sourceId.toNat targetId.toNat msg
  | .recv id => .fetch id.toNat

/-- The names of a directory with an id for each are those of the others with a number. -/
structure Directory (others : Set (ℕ × Bytes)) (m : UnorderedMap Bytes UserId) : Prop where
  mem_iff : ∀ name, name ∈ m ↔ ∃ i, (i, name) ∈ others
  bears : ∀ name id, m[name]? = some id → (id.toNat, name) ∈ others

/-- What a client learnt, as an answer of the mailboxes. Nothing is said of the Recv outcome
for somebody unknown. -/
def Answers : Outcome → Mailboxes.Answer Bytes Bytes → Prop
  | .register ok id, .joined who => ok = true ∧ id.toNat = who
  | .users ok m, .listed others => ok = true ∧ Directory others m
  | .users ok m, .unknown => ok = false ∧ m = ∅
  | .send ok stat, .sent => ok = true ∧ stat = .kSuccess
  | .send ok stat, .noSource => ok = true ∧ stat = .kErrSrcId
  | .send ok stat, .noTarget => ok = true ∧ stat = .kErrTrgtId
  | .recv ok msgs, .fetched texts => ok = true ∧ msgs.map Msg.text = texts
  | .recv _ _, .unknown => True
  | _, _ => False

variable {P : Platform} {db : Database} {t : Mailboxes Bytes Bytes}

/-! ## One request -/

/-- The directory in a Users response. -/
theorem Represents.directory (h : Represents db t) (hle : t.names.length ≤ 2 ^ 32) (id : UserId) :
    Directory (t.others id.toNat)
      ((MccServer.listedUsers P db id).foldl (fun m r => m.insert r.2 r.1) ∅) := by
  have hothers : MapsOthers db id _ := (listedUsers_listsOthers P db id).mapsOthers
  refine ⟨?_, ?_⟩
  · intro name
    rw [hothers.mem_iff]
    constructor
    · rintro ⟨i, hi⟩
      exact ⟨i.toNat, (h.mem_others_iff id i name).mpr hi⟩
    · rintro ⟨k, hk⟩
      obtain ⟨i, rfl⟩ := Represents.exists_id hle hk
      exact ⟨i, (h.mem_others_iff id i name).mp hk⟩
  · intro name i hi
    exact (h.mem_others_iff id i name).mpr (hothers.bears name i hi)

/-- **One request is one action**: the database stands for the mailboxes after it, and the
answer is theirs. -/
theorem Represents.reply (h : Represents db t) (r : Request)
    (hle : t.names.length + (if r.isRegister then 1 else 0) ≤ 2 ^ 32) :
    Represents (reply P db r).db (t.step r.action).1 ∧
      ((∀ id, r = .recv id → db.userExists id = true) →
        Answers (answer P db r) (t.step r.action).2) := by
  match r with
  | .register username =>
      have hlt : t.names.length < 2 ^ 32 := by
        rw [Request.isRegister, if_pos rfl] at hle
        omega
      refine ⟨h.register hlt username, fun _ => ⟨rfl, ?_⟩⟩
      rw [h.named.counted.nextId_eq, Nat.mod_eq_of_lt hlt]
  | .users id =>
      refine ⟨?_, fun _ => ?_⟩
      · show Represents (usersReply P db id).db t
        rw [usersReply_db]
        exact h
      · have hiff := h.userExists_iff id
        show Answers (if db.userExists id then _ else _)
          (if id.toNat < t.names.length then _ else _)
        by_cases hex : db.userExists id = true
        · rw [if_pos hex, if_pos (hiff.mp hex)]
          have hdirectory := h.directory (P := P) (by simpa [Request.isRegister] using hle) id
          rw [MccServer.listedUsers, List.foldl_map] at hdirectory
          exact ⟨rfl, hdirectory⟩
        · rw [if_neg hex, if_neg (fun hlt => hex (hiff.mpr hlt))]
          exact ⟨rfl, rfl⟩
  | .send sourceId targetId msg =>
      have hsource := h.userExists_iff sourceId
      have htarget := h.userExists_iff targetId
      show Represents (sendEffect db sourceId targetId msg).2 (t.step (.send _ _ _)).1 ∧
        (_ → Answers (.send true (.ofByte (sendEffect db sourceId targetId msg).1))
          (t.step (.send _ _ _)).2)
      rw [Mailboxes.step, Net.ofByte_sendEffect, sendEffect, Net.sendStatus]
      by_cases hs : db.userExists sourceId = true
      · by_cases ht : db.userExists targetId = true
        · simp only [hs, ht, Bool.not_true, Bool.false_eq_true, if_false, hsource.mp hs,
            htarget.mp ht, dif_pos]
          exact ⟨h.queueMsg (hsource.mp hs) (htarget.mp ht) msg, fun _ => ⟨rfl, rfl⟩⟩
        · simp only [hs, ht, Bool.not_true, Bool.not_false, Bool.false_eq_true, if_false, if_true,
            hsource.mp hs, mt htarget.mpr ht, dif_pos, dif_neg, not_false_eq_true]
          exact ⟨h, fun _ => ⟨rfl, rfl⟩⟩
      · simp only [hs, Bool.not_false, if_true, mt hsource.mpr hs, dif_neg, not_false_eq_true]
        exact ⟨h, fun _ => ⟨rfl, rfl⟩⟩
  | .recv id =>
      have hiff := h.userExists_iff id
      show Represents (recvReply P db id).db (t.step (.fetch _)).1 ∧
        (_ → Answers (.recv true (db.queueOf id)) (t.step (.fetch _)).2)
      rw [Mailboxes.step, recvReply]
      by_cases hex : db.userExists id = true
      · rw [if_pos (hiff.mp hex), if_neg (by simp [hex])]
        exact ⟨h.clearMsgs hex, fun _ => ⟨rfl, h.queue id⟩⟩
      · rw [if_neg (mt hiff.mpr hex), if_pos (by simp [hex])]
        exact ⟨h, fun hknown => absurd (hknown id rfl) hex⟩

namespace Net

variable {ι : Type} [DecidableEq ι] {net net' : Net ι} {cmds : List (ι × Request)}
  {log : List (Event ι)}

/-- What a request asks of the mailboxes, whoever sends it. -/
def action (cmd : ι × Request) : Mailboxes.Action Bytes Bytes := cmd.2.action

/-- A step and the step of the mailboxes that it is. -/
structure Matches (e : Event ι)
    (d : Entry (Mailboxes Bytes Bytes) (Mailboxes.Action Bytes Bytes)
      (Mailboxes.Answer Bytes Bytes)) : Prop where
  before : Represents e.before.server.db d.before
  input : d.input = action e.input
  output : Answers e.output d.output

/-- The relation that a run keeps, with room for the registrations still to come. -/
structure Stands (net : Net ι) (t : Mailboxes Bytes Bytes) (rest : List (ι × Request)) :
    Prop where
  represents : Represents net.server.db t
  short : ShortMsgs net.server.db
  room : t.names.length + registrations rest ≤ 2 ^ 32

/-- What a client learns from a step is what it decodes. -/
theorem handleResp_of_step {cmd : ι × Request} {outcome : Outcome} (hfits : Fits P net cmd)
    (hstep : net.step P cmd = .ok (net', outcome)) :
    (received P net cmd).handleResp P.byteOrder cmd.2 = .ok outcome := by
  rw [step_eq hfits] at hstep
  obtain ⟨o, ho, hstep⟩ := bind_eq_ok.mp hstep
  simp only [Except.ok.injEq, Prod.mk.injEq] at hstep
  rw [ho, hstep.2]

theorem Stands.step {cmd : ι × Request} {t : Mailboxes Bytes Bytes} {outcome : Outcome}
    (h : Stands net t (cmd :: cmds)) (hfits : Fits P net cmd)
    (hstep : net.step P cmd = .ok (net', outcome)) :
    Stands net' (t.step (action cmd)).1 cmds ∧
      Matches ⟨net, cmd, outcome⟩ ⟨t, action cmd, (t.step (action cmd)).2⟩ := by
  have hroom : t.names.length + (registrations cmds + if cmd.2.isRegister then 1 else 0)
      ≤ 2 ^ 32 := by
    have hcons : registrations (cmd :: cmds)
        = registrations cmds + if cmd.2.isRegister then 1 else 0 := List.countP_cons
    exact hcons ▸ h.room
  obtain ⟨hrep, hanswers⟩ := h.represents.reply (P := P) cmd.2 (by omega)
  obtain ⟨rfl, houtcome⟩ := step_outcome hfits h.short hstep
  refine ⟨⟨hrep, ?_, ?_⟩, h.represents, rfl, ?_⟩
  · intro U m hm
    rcases mem_queueOf_reply P net.server.db hm with hm | hm
    · exact h.short U m hm
    · exact hfits.msg_short hm
  · have hname : (action cmd).name?.toList.length = if cmd.2.isRegister then 1 else 0 := by
      obtain ⟨i, r⟩ := cmd
      cases r <;> rfl
    rw [Mailboxes.names_step, List.length_append, hname]
    omega
  · by_cases hknown : ∀ id, cmd.2 = .recv id → net.server.db.userExists id = true
    · rcases houtcome with rfl | ⟨id, hid, hex⟩
      · exact hanswers hknown
      · rw [hknown id hid] at hex
        cases hex
    -- Nobody holds the id of this Recv request: its outcome is some list of messages.
    · simp only [not_forall, Bool.not_eq_true] at hknown
      obtain ⟨id, hid, hex⟩ := hknown
      obtain ⟨i, r⟩ := cmd
      obtain rfl : r = .recv id := hid
      obtain ⟨-, msgs, rfl, -⟩ := outcome_unknown hex (handleResp_of_step hfits hstep)
      have hnot : ¬id.toNat < t.names.length := by
        rw [← h.represents.userExists_iff, hex]
        simp
      show Answers (.recv true msgs) (t.step (.fetch id.toNat)).2
      rw [Mailboxes.step, if_neg hnot]
      trivial

/-- **The server and its clients are mailboxes.** Starting from no users and with at most
`2 ^ 32` registrations, a run of any clients' requests in any order is a run of the mailboxes:
step by step the database stands for their state, and what the client learns is their answer. -/
theorem refines (h : Assumed P net cmds) (hrun : run (Net.step P) net cmds = .ok (net', log)) :
    ∃ t spec, run (total Mailboxes.step) .empty (cmds.map action) = .ok (t, spec) ∧
      Represents net'.server.db t ∧ List.Forall₂ Matches log spec := by
  have hstart : Stands net .empty cmds := by
    refine ⟨h.empty ▸ Represents.empty, ?_, ?_⟩
    · rw [h.empty]
      intro U m hm
      rw [queueOf_empty] at hm
      cases hm
    · show 0 + registrations cmds ≤ 2 ^ 32
      rw [Nat.zero_add]
      exact h.registrations_le
  obtain ⟨t, spec, hspec, hstands, hlog⟩ :=
    run_simulation (total Mailboxes.step) (fun cmd => some (action cmd)) Stands Matches
      (fun _ _ _ _ _ _ _ _ _ hf => by cases hf)
      (fun net t cmd cmds net' outcome a hsim hfits hstep hf => by
        obtain rfl : action cmd = a := Option.some.inj hf
        obtain ⟨hsim', hmatch⟩ := hsim.step hfits hstep
        exact ⟨_, _, rfl, hsim', hmatch⟩)
      hstart h.fits hrun
  have hall : followed (fun cmd => some (action cmd)) log = log := List.filter_true log
  have hinputs : cmds.filterMap (fun cmd => some (action cmd)) = cmds.map action := by simp
  rw [hall] at hlog
  rw [hinputs] at hspec
  exact ⟨t, spec, hspec, hstands.represents, hlog⟩

/-- Two users register, one writes to the other, who is told of the message and of the sender. -/
theorem refines_two_users :
    let cmds : List (Unit × Request) := [((), .register [65]), ((), .register [66]),
      ((), .send 0 1 [104, 105]), ((), .users 1), ((), .recv 1)]
    ∃ net' log, run (Net.step .littleEndian) fresh cmds = .ok (net', log) ∧
      ∃ t spec, run (total Mailboxes.step) .empty (cmds.map action) = .ok (t, spec) ∧
        Represents net'.server.db t ∧ List.Forall₂ Matches log spec := by
  intro cmds
  have hok : (run (Net.step .littleEndian) fresh cmds).map (fun _ => true) = .ok true := by
    decide +kernel
  obtain ⟨⟨net', log⟩, hrun, -⟩ := map_eq_ok.mp hok
  exact ⟨net', log, hrun, refines ⟨rfl, by decide +kernel, by decide⟩ hrun⟩

/-! ## The directories of a run -/

/-- The name under which a step registers a user. -/
def joined (e : Event ι) : Option Bytes := (action e.input).name?

/-- **Directories are complete.** A positive Users outcome has the names of those who had
registered when it was asked for, in the order of their ids and but for the asker, and none
else. Nobody is ever lost from a directory. -/
theorem directory_of_run (h : Assumed P net cmds)
    (hrun : run (Net.step P) net cmds = .ok (net', log)) {earlier later : List (Event ι)}
    {e : Event ι} (hlog : log = earlier ++ e :: later) {id : UserId}
    {m : UnorderedMap Bytes UserId} (hask : e.input.2 = .users id)
    (hout : e.output = .users true m) :
    Directory {x | x.1 ≠ id.toNat ∧ (earlier.filterMap joined)[x.1]? = some x.2} m := by
  obtain ⟨t, spec, hspec, -, hmatches⟩ := refines h hrun
  rw [hlog] at hmatches
  obtain ⟨before, d, after, rfl, hbefore, hd⟩ := forall₂_append_cons_left hmatches
  have hinputs : before.map Entry.input = earlier.map (fun e => action e.input) := by
    rw [← List.forall₂_eq_eq_eq, List.forall₂_map_left_iff, List.forall₂_map_right_iff]
    exact hbefore.flip.imp fun _ _ hm => hm.input
  have hnames : d.before.names = earlier.filterMap joined :=
    calc d.before.names
        = [] ++ (before.map Entry.input).filterMap Mailboxes.Action.name? :=
          Mailboxes.names_eq_of_run (run_of_log_eq hspec)
      _ = earlier.filterMap joined := by
          rw [hinputs, List.nil_append, List.filterMap_map]
          rfl
  obtain ⟨t', hstep⟩ := step_of_mem_log hspec (List.mem_append_right _ List.mem_cons_self)
  have hlook : d.input = .look id.toNat := by
    rw [hd.input, action, hask]
    rfl
  have hanswer : Answers (.users true m) (if id.toNat < d.before.names.length then
      .listed (d.before.others id.toNat) else .unknown) := by
    have hout' : (d.before.step (.look id.toNat)).2 = d.output := by
      rw [← hlook, total_eq_ok.mp hstep]
    have hans : Answers e.output d.output := hd.output
    rw [hout, ← hout'] at hans
    exact hans
  by_cases hid : id.toNat < d.before.names.length
  · rw [if_pos hid, Mailboxes.others, hnames] at hanswer
    exact hanswer.2
  · rw [if_neg hid] at hanswer
    cases hanswer.1

/-- Of two namesakes the first asks for the others. -/
theorem directory_of_run_namesakes :
    let cmds : List (Unit × Request) := [((), .register [65]), ((), .register [65]), ((), .users 0)]
    ∃ net' e₁ e₂ e m, run (Net.step .littleEndian) fresh cmds = .ok (net', [e₁, e₂, e]) ∧
      e.output = .users true m ∧
      Directory
        {x | x.1 ≠ (0 : UserId).toNat ∧ ([e₁, e₂].filterMap joined)[x.1]? = some x.2} m := by
  intro cmds
  let m : UnorderedMap Bytes UserId := UnorderedMap.subscript ∅ [65] fun _ => 1
  have hok : (run (Net.step .littleEndian) fresh cmds).map (fun x => x.2.map Entry.output)
      = .ok [.register true 0, .register true 1, .users true m] := by
    decide +kernel
  obtain ⟨⟨net', log⟩, hrun, hout⟩ := map_eq_ok.mp hok
  have hlength : log.length = 3 := by simpa using congrArg List.length hout
  obtain ⟨e₁, e₂, e, rfl⟩ := List.length_eq_three.mp hlength
  simp only [List.map_cons, List.map_nil, List.cons.injEq] at hout
  have hin := log_map_input hrun
  simp only [cmds, List.map_cons, List.map_nil, List.cons.injEq] at hin
  exact ⟨net', e₁, e₂, e, _, hrun, hout.2.2.1,
    directory_of_run ⟨rfl, by decide +kernel, by decide⟩ hrun rfl
      (by rw [hin.2.2.1]) hout.2.2.1⟩

end Net

end ChatApp
