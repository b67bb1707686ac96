import ChatApp.ByteProtocol.Memory
import ChatApp.Lib.Run
import ChatApp.Server.Shape
import ChatApp.Server.Usernames

set_option autoImplicit false

/-! # The database in a run of the byte server

A request of the byte protocol is at most one operation on the database (`reply_db`), and a
proper one: a message is queued only if it has a text and both its users exist. So in a run
from the empty database the users are those registered so far, numbered from 0, and no request
makes a user appear in any other way (`shape_of_run`).
-/

namespace ChatApp

open Lib

namespace MccServer

variable (P : Platform)

/-! ## Requests as operations -/

/-- The operation a request comes to, if it comes to one. -/
def operation (db : Database) : Request → Option Database.Op
  | .register username => some (.register username)
  | .users _ => none
  | .send sourceId targetId msg =>
      if db.userExists sourceId && db.userExists targetId then
        some (.queue targetId ⟨sourceId, msg⟩)
      else none
  | .recv id => some (.clear id)

/-- **What a request does to the database** is its operation. -/
theorem reply_db (db : Database) (r : Request) :
    (reply P db r).db = (operation db r).toList.foldl Database.Op.apply db := by
  cases r with
  | register username => rfl
  | users id => exact usersReply_db P db id
  | send sourceId targetId msg =>
      simp only [reply, sendReply, sendEffect, operation]
      cases db.userExists sourceId <;> cases db.userExists targetId <;> rfl
  | recv id =>
      simp only [reply, recvReply, operation, Option.toList_some, List.foldl_cons, List.foldl_nil,
        Database.Op.apply]
      cases db.userExists id <;> rfl

/-- The name a request registers is that of its operation. -/
theorem username_operation (db : Database) (r : Request) :
    (operation db r).bind Database.Op.username? = Registrar.requestUsername r := by
  cases r with
  | send sourceId targetId msg =>
      rw [operation]
      split_ifs <;> rfl
  | _ => rfl

variable {P}

/-- A message in a packet has a text. -/
theorem msg_ne_nil {data : Bytes} {sourceId targetId : UserId} {msg : Bytes}
    (h : requestIn P data = .ok (.send sourceId targetId msg)) : msg ≠ [] := by
  obtain ⟨⟨type, len⟩, hread, h⟩ := bind_eq_ok.mp h
  cases type with
  | kRequestSend =>
      obtain ⟨u, hassert, h⟩ := bind_eq_ok.mp h
      obtain ⟨sourceId', -, h⟩ := bind_eq_ok.mp h
      obtain ⟨targetId', -, h⟩ := bind_eq_ok.mp h
      obtain ⟨msg', hmsg, h⟩ := bind_eq_ok.mp h
      cases h
      -- The assertion leaves at least one byte behind the two ids.
      have hlong : 8 < len.toNat := by
        by_contra hshort
        rw [decide_eq_false hshort] at hassert
        cases hassert
      have hlen : msg.length = len.toNat - 8 := (readBytes_eq_ok.mp hmsg).1
      intro hnil
      rw [hnil, List.length_nil] at hlen
      omega
  | _ => simp [bind_eq_ok] at h

/-- The operation of a packet is proper. -/
theorem proper_operation {data : Bytes} {r : Request} (h : requestIn P data = .ok r)
    (db : Database) : ∀ op ∈ operation db r, op.Proper db := by
  intro op hop
  cases r with
  | register username =>
      cases hop
      trivial
  | users id => cases hop
  | send sourceId targetId msg =>
      rw [operation] at hop
      split_ifs at hop with hboth
      · cases hop
        exact ⟨msg_ne_nil h, (Bool.and_eq_true_iff.mp hboth).1⟩
      · cases hop
  | recv id =>
      cases hop
      trivial

/-! ## Runs -/

variable (P)

/-- A request, as a step of the server: what `parse` returns, and the database. -/
def serve (s : MccServer) (data : Bytes) : Except Fault (MccServer × Nat × Database) := do
  let (n, s) ← s.parse P data
  return (s, n, s.db)

/-- The name a packet registers, if it is a registration. -/
def registeredName (data : Bytes) : Option Bytes :=
  (requestIn P data).toOption.bind Registrar.requestUsername

/-- The users are those registered, numbered from 0 and under the names they were registered
with, as many as the database reports, and every message that waits has a text and comes from
one of them. -/
structure WellShaped (names : List Bytes) (db : Database) : Prop where
  keys : ∀ id, db.userExists id = true ↔ id.toNat < names.length
  numUsers : db.getNumUsers.toNat = names.length % 2 ^ 32
  username : ∀ id, db.nameOf id = names[id.toNat]?
  queued : ∀ id, ∀ m ∈ db.queueOf id, m.msg ≠ [] ∧ db.userExists m.senderId = true

/-- A step makes nobody appear but the user it registers, under the id at the counter. -/
def NoPhantom (e : Entry MccServer Bytes (Nat × Database)) : Prop :=
  ∀ id, e.output.2.userExists id = true ↔
    ((∃ username, registeredName P e.input = some username) ∧ e.before.db.nextId = id) ∨
      e.before.db.userExists id = true

variable {P}

/-- A step of the server is an operation on its database, if the request comes to one. -/
theorem serve_eq_ok {s s' : MccServer} {data : Bytes} {out : Nat × Database}
    (h : serve P s data = .ok (s', out)) :
    ∃ r, requestIn P data = .ok r ∧ out.2 = s'.db ∧
      s'.db = (operation s.db r).toList.foldl Database.Op.apply s.db := by
  obtain ⟨⟨n, t⟩, hparse, hout⟩ := bind_eq_ok.mp h
  simp only [pure_eq_ok, Except.ok.injEq, Prod.mk.injEq] at hout
  obtain ⟨rfl, rfl⟩ := hout
  rw [parse_eq] at hparse
  obtain ⟨r, hin, hresp⟩ := bind_eq_ok.mp hparse
  have hreply := congrArg (fun out => out.2.db) (respond_eq_ok.mp hresp).2
  exact ⟨r, hin, rfl, hreply.trans (reply_db P s.db r)⟩

/-- **The step lemma.** -/
theorem serve_shape {s s' : MccServer} {data : Bytes} {out : Nat × Database} {names : List Bytes}
    (hnamed : s.db.Named names) (hsigned : s.db.Signed)
    (hle : (names ++ (registeredName P data).toList).length ≤ 2 ^ 32)
    (h : serve P s data = .ok (s', out)) :
    s'.db.Named (names ++ (registeredName P data).toList) ∧ s'.db.Signed ∧
      NoPhantom P ⟨s, data, out⟩ := by
  obtain ⟨r, hin, hout, hdb⟩ := serve_eq_ok h
  have hname : registeredName P data = (operation s.db r).bind Database.Op.username? := by
    rw [username_operation, registeredName, hin]
    rfl
  have hproper := proper_operation hin s.db
  -- Names and ids are those of the operation, which is at hand for both.
  have hphantom : NoPhantom P ⟨s, data, out⟩ ↔ ∀ id, s'.db.userExists id = true ↔
      ((∃ username, (operation s.db r).bind Database.Op.username? = some username) ∧
        s.db.nextId = id) ∨ s.db.userExists id = true := by
    rw [NoPhantom, hname, hout]
  rw [hphantom, hdb]
  rw [hname] at hle ⊢
  cases hop : operation s.db r with
  | none =>
      rw [hop] at hle
      refine ⟨?_, hsigned, ?_⟩
      · simpa using hnamed
      · simp
  | some op =>
      rw [hop] at hle hproper
      refine ⟨hnamed.apply hle, hsigned.apply (hproper op rfl), ?_⟩
      intro id
      have hregister : op.isRegister = true ↔ ∃ username, op.username? = some username := by
        cases op <;> simp [Database.Op.isRegister, Database.Op.username?]
      rw [Option.toList_some, List.foldl_cons, List.foldl_nil, Option.bind_some, ← hregister]
      exact Database.userExists_apply s.db op id

/-- **The run lemma**, from any database of that shape. -/
theorem shape_of_run_from {s s' : MccServer} {datas : List Bytes}
    {log : List (Entry MccServer Bytes (Nat × Database))} {names : List Bytes}
    (hnamed : s.db.Named names) (hsigned : s.db.Signed)
    (hle : (names ++ datas.filterMap (registeredName P)).length ≤ 2 ^ 32)
    (hrun : run (serve P) s datas = .ok (s', log)) :
    s'.db.Named (names ++ datas.filterMap (registeredName P)) ∧ s'.db.Signed ∧
      ∀ e ∈ log, NoPhantom P e := by
  induction datas generalizing s log names with
  | nil =>
      obtain ⟨rfl, rfl⟩ : s = s' ∧ [] = log := by simpa [run] using hrun
      simpa using ⟨hnamed, hsigned⟩
  | cons data datas ih =>
      obtain ⟨t, out, log', hstep, hrest, rfl⟩ := run_cons_eq_ok.mp hrun
      have hsplit : names ++ (data :: datas).filterMap (registeredName P)
          = names ++ (registeredName P data).toList ++ datas.filterMap (registeredName P) := by
        rw [List.append_assoc]
        cases hname : registeredName P data with
        | none => simp [hname]
        | some username => simp [hname]
      rw [hsplit] at hle ⊢
      -- The bound is on all registrations, so it holds of those up to here.
      have hfirst : (names ++ (registeredName P data).toList).length ≤ 2 ^ 32 := by
        rw [List.length_append] at hle
        omega
      obtain ⟨hnamed', hsigned', hphantom⟩ := serve_shape hnamed hsigned hfirst hstep
      obtain ⟨hend, hendq, hlog⟩ := ih hnamed' hsigned' hle hrest
      exact ⟨hend, hendq, List.forall_mem_cons.mpr ⟨hphantom, hlog⟩⟩

/-- Requests of the right size are all served, given a large enough transmit buffer. -/
theorem run_isOk {datas : List Bytes} (hsizes : ∀ data ∈ datas, WellSized P.byteOrder data)
    (db : Database) :
    ∃ n, ∀ txBuffer : Bytes, n ≤ txBuffer.length →
      ∃ out, run (serve P) ⟨db, txBuffer⟩ datas = .ok out := by
  induction datas generalizing db with
  | nil => exact ⟨0, fun txBuffer _ => ⟨_, rfl⟩⟩
  | cons data datas ih =>
      obtain ⟨r, hin⟩ := (accepts_iff_requestIn P db data).mp
        ((accepts_iff P db data).mpr (hsizes data List.mem_cons_self))
      obtain ⟨n, hn⟩ := ih (fun d hd => hsizes d (List.mem_cons_of_mem data hd)) (reply P db r).db
      refine ⟨max n (reply P db r).bytes.length, fun txBuffer hlen => ?_⟩
      have hfits : (reply P db r).bytes.length ≤ txBuffer.length := by omega
      have hparse : parse P ⟨db, txBuffer⟩ data = _ :=
        (parse_eq P ⟨db, txBuffer⟩ data).trans (by rw [hin, ok_bind, respond_of_le hfits])
      -- The buffer keeps its size, so it is large enough for the rest, too.
      have hsame : ((reply P db r).bytes ++ txBuffer.drop (reply P db r).bytes.length).length
          = txBuffer.length := by
        rw [List.length_append, List.length_drop]
        omega
      obtain ⟨⟨s', log⟩, hrun⟩ := hn _ (by rw [hsame]; omega)
      exact ⟨_, run_cons_eq_ok.mpr ⟨_, _, log, bind_eq_ok.mpr ⟨_, hparse, rfl⟩, hrun, rfl⟩⟩

/-- **The shape of the database**: after any requests of the right size, of which at most
`2 ^ 32` are registrations, the users are those registered so far, numbered from 0, and no
request on the way has made anybody else appear. Such requests are all served, given a large
enough transmit buffer. -/
theorem shape_of_run (P : Platform) {datas : List Bytes}
    (hsizes : ∀ data ∈ datas, WellSized P.byteOrder data)
    (hcount : (datas.filterMap (registeredName P)).length ≤ 2 ^ 32) :
    (∃ n, ∀ txBuffer : Bytes, n ≤ txBuffer.length →
      ∃ out, run (serve P) ⟨.empty, txBuffer⟩ datas = .ok out) ∧
    ∀ (txBuffer : Bytes) (s' : MccServer) (log : List (Entry MccServer Bytes (Nat × Database))),
      run (serve P) ⟨.empty, txBuffer⟩ datas = .ok (s', log) →
        WellShaped (datas.filterMap (registeredName P)) s'.db ∧ ∀ e ∈ log, NoPhantom P e := by
  refine ⟨run_isOk hsizes .empty, ?_⟩
  intro txBuffer s' log hrun
  obtain ⟨hnamed, hsigned, hlog⟩ :=
    shape_of_run_from Database.Named.empty Database.Signed.empty hcount hrun
  exact ⟨⟨hnamed.counted.exists_iff, hnamed.getNumUsers hcount, hnamed.username, hsigned⟩, hlog⟩

/-- Two registrations, a message from the first user to the second, and a Recv request under
an id that nobody has. -/
theorem shape_of_run_two_users :
    let datas : List Bytes := [[0, 1, 0, 0, 0, 65], [0, 1, 0, 0, 0, 66],
      [2, 9, 0, 0, 0, 0, 0, 0, 0, 1, 0, 0, 0, 104], [3, 4, 0, 0, 0, 7, 0, 0, 0]]
    ∃ s' log, run (serve .littleEndian) ⟨.empty, List.replicate 16 0⟩ datas = .ok (s', log) ∧
      WellShaped [[65], [66]] s'.db ∧ ∀ e ∈ log, NoPhantom .littleEndian e := by
  intro datas
  have hsizes : ∀ data ∈ datas, WellSized Platform.littleEndian.byteOrder data := by
    simp only [datas, List.forall_mem_cons, List.not_mem_nil, false_implies, implies_true,
      and_true]
    exact ⟨⟨⟨.kRequestRegister, 1⟩, rfl, by decide⟩, ⟨⟨.kRequestRegister, 1⟩, rfl, by decide⟩,
      ⟨⟨.kRequestSend, 9⟩, rfl, by decide⟩, ⟨⟨.kRequestRecv, 4⟩, rfl, by decide⟩⟩
  have hnames : datas.filterMap (registeredName .littleEndian) = [[65], [66]] := by
    decide
  have hshape := (shape_of_run .littleEndian hsizes (by rw [hnames]; decide)).2
    (List.replicate 16 0)
  rw [hnames] at hshape
  exact ⟨_, _, rfl, hshape _ _ rfl⟩

end MccServer

end ChatApp
