import ChatApp.ByteProtocol.Disclosure
import ChatApp.ByteProtocol.RoundTrip
import ChatApp.ByteProtocol.Slices

set_option autoImplicit false

/-! # How large the buffers have to be

A Users response lists at most the names that have been registered, and a Recv response at
most the messages that have been sent, each with eight bytes in front. So a bound on the
buffers can be read off the requests before any is made (`capacity`), whoever makes them and in
whatever order they come: with buffers of that size every packet of the run fits, and the
messages arrive exactly once (`exactlyOnce_of_capacity`).
-/

namespace ChatApp

open Lib Database MccServer

/-! ## The records in a response -/

/-- The size of the records of some texts. -/
def recordsSize (texts : List Bytes) : Nat := (texts.map (fun text => 8 + text.length)).sum

@[simp] theorem recordsSize_append (texts texts' : List Bytes) :
    recordsSize (texts ++ texts') = recordsSize texts + recordsSize texts' := by
  rw [recordsSize, List.map_append, List.sum_append]
  rfl

@[simp] theorem recordsSize_nil : recordsSize [] = 0 := rfl

@[simp] theorem recordsSize_singleton (text : Bytes) : recordsSize [text] = 8 + text.length := by
  simp [recordsSize]

theorem recordsSize_subperm {texts texts' : List Bytes} (h : texts.Subperm texts') :
    recordsSize texts ≤ recordsSize texts' := by
  obtain ⟨l, hperm, hsub⟩ := h
  calc recordsSize texts
      = recordsSize l := ((hperm.map _).sum_eq).symm
    _ ≤ recordsSize texts' := (hsub.map _).sum_le_sum fun _ _ => Nat.zero_le _

theorem eight_mul_length_le (texts : List Bytes) : 8 * texts.length ≤ recordsSize texts := by
  induction texts with
  | nil => exact Nat.le_refl 0
  | cons text texts ih =>
      have hcons : recordsSize (text :: texts) = 8 + text.length + recordsSize texts := by
        simp [recordsSize]
      rw [hcons, List.length_cons]
      omega

namespace MccServer

variable {P : Platform} {db : Database}

/-- The names in a Users response are among those registered. -/
theorem subperm_listedUsers {names : List Bytes} (h : db.Named names) (id : UserId) :
    ((listedUsers P db id).map Prod.snd).Subperm names := by
  have hlists := listedUsers_listsOthers P db id
  have hinj : Function.Injective UInt32.toNat := fun a b => UInt32.toNat_inj.mp
  -- Each listed name stands in `names` at the place that is its user's id.
  have hnodup : ((listedUsers P db id).map fun e => (e.2, e.1.toNat)).Nodup := by
    refine List.Nodup.of_map Prod.snd ?_
    rw [List.map_map]
    have hids := hlists.nodup.map hinj
    rwa [List.map_map] at hids
  have hsub : ((listedUsers P db id).map fun e => (e.2, e.1.toNat)) ⊆ names.zipIdx := by
    intro x hx
    obtain ⟨⟨i, name⟩, hmem, rfl⟩ := List.mem_map.mp hx
    have hname := ((hlists.mem_iff i name).mp hmem).2
    rw [h.username] at hname
    exact List.mem_zipIdx_iff_getElem?.mpr hname
  obtain ⟨l, hperm, hsublist⟩ := hnodup.subperm hsub
  have hmap := List.Subperm.trans (hperm.map Prod.fst).symm.subperm (hsublist.map Prod.fst).subperm
  rwa [List.map_map, List.zipIdx_map_fst] at hmap

/-- A response and the count returned are within fifteen bytes of the records. -/
theorem ret_le_of_records {r : Request} {n : Nat}
    (husers : ∀ id, r = .users id → recordsSize ((listedUsers P db id).map Prod.snd) ≤ n)
    (hrecv : ∀ id, r = .recv id → recordsSize ((db.queueOf id).map Msg.msg) ≤ n)
    (hn : 15 + n < 2 ^ 32) :
    (reply P db r).bytes.length ≤ 10 + n ∧ (reply P db r).ret ≤ 15 + n := by
  have hbytes : (reply P db r).bytes.length ≤ 10 + n := by
    rw [reply_length]
    cases r with
    | register username => exact Nat.le_add_right 10 n
    | send sourceId targetId msg =>
        show 6 ≤ 10 + n
        omega
    | users id =>
        have hsum := husers id rfl
        rw [recordsSize, listedUsers, List.map_map, List.map_map] at hsum
        rw [responseSize]
        split_ifs
        · omega
        · exact Nat.add_le_add_left hsum 10
    | recv id =>
        have hsum := hrecv id rfl
        rw [recordsSize, List.map_map] at hsum
        have hmod : ((db.queueOf id).map fun m => 8 + m.msg.length % 2 ^ 32).sum
            ≤ ((db.queueOf id).map fun m => 8 + m.msg.length).sum :=
          List.sum_le_sum fun m _ => Nat.add_le_add_left (Nat.mod_le _ _) 8
        rw [responseSize]
        split_ifs
        · omega
        · exact Nat.add_le_add_left (hmod.trans hsum) 10
  have hover : overcount db r ≤ 5 := by
    cases r with
    | register username => exact Nat.zero_le 5
    | send sourceId targetId msg => exact Nat.zero_le 5
    | users id =>
        rw [overcount]
        split_ifs <;> decide
    | recv id =>
        rw [overcount]
        split_ifs <;> decide
  rw [ret_eq (by omega)]
  exact ⟨hbytes, by omega⟩

end MccServer

namespace Net

variable {ι : Type} [DecidableEq ι] {P : Platform} {net net' : Net ι} {cmd : ι × Request}
  {cmds : List (ι × Request)}

/-! ## A bound from the requests -/

/-- The texts that a request brings to the server. -/
def texts : Request → List Bytes
  | .register username => [username]
  | .users _ => []
  | .send _ _ msg => [msg]
  | .recv _ => []

/-- What the buffers have to hold: one record for each name and message, and fifteen bytes. -/
def capacity (cmds : List (ι × Request)) : Nat := 15 + recordsSize (cmds.flatMap (texts ·.2))

/-- Requests that the server understands, and buffers for all of them. -/
structure Roomy (net : Net ι) (cmds : List (ι × Request)) : Prop where
  empty : net.server.db = .empty
  messages : ∀ cmd ∈ cmds, ∀ msg ∈ cmd.2.msg?, msg ≠ []
  small : capacity cmds < 2 ^ 32
  server : capacity cmds ≤ net.server.txBuffer.length
  tx : ∀ i, capacity cmds ≤ (net.clients i).txBuffer.length
  rx : ∀ i, capacity cmds ≤ (net.clients i).rxBuffer.length

/-- What has been sent to the server is `past`, and there is room for it and for the rest. -/
structure Loaded (bound : Nat) (past : List Bytes) (names : List Bytes) (net : Net ι)
    (rest : List (ι × Request)) : Prop where
  total : 15 + (recordsSize past + recordsSize (rest.flatMap (texts ·.2))) ≤ bound
  small : bound < 2 ^ 32
  messages : ∀ cmd ∈ rest, ∀ msg ∈ cmd.2.msg?, msg ≠ []
  named : net.server.db.Named names
  names_le : recordsSize names ≤ recordsSize past
  queue_le : ∀ U, recordsSize ((net.server.db.queueOf U).map Msg.msg) ≤ recordsSize past
  short : ShortMsgs net.server.db
  server : bound ≤ net.server.txBuffer.length
  tx : ∀ i, bound ≤ (net.clients i).txBuffer.length
  rx : ∀ i, bound ≤ (net.clients i).rxBuffer.length

variable {bound : Nat} {past names : List Bytes}

omit [DecidableEq ι] in
theorem requestBytes_length_le (P : Platform) (r : Request) :
    (MccClient.requestBytes P.byteOrder r).length ≤ 15 + recordsSize (texts r) := by
  match r with
  | .register username =>
      simp [MccClient.requestBytes, MccClient.registerBytes, texts, sizeofHeader]
      omega
  | .users id => simp [MccClient.requestBytes, MccClient.usersBytes, texts, sizeofHeader]
  | .send sourceId targetId msg =>
      simp [MccClient.requestBytes, MccClient.sendBytes, texts, sizeofHeader]
      omega
  | .recv id => simp [MccClient.requestBytes, MccClient.recvBytes, texts, sizeofHeader]

omit [DecidableEq ι] in
/-- The packets of the next step fit. -/
theorem Loaded.fits (h : Loaded bound past names net (cmd :: cmds)) : Fits P net cmd := by
  have htotal := h.total
  rw [List.flatMap_cons, recordsSize_append] at htotal
  have hsmall := h.small
  have hrequest := requestBytes_length_le P cmd.2
  obtain ⟨hbytes, hret⟩ := ret_le_of_records (P := P) (r := cmd.2)
    (n := recordsSize past)
    (fun id _ => (recordsSize_subperm (subperm_listedUsers h.named id)).trans h.names_le)
    (fun id _ => h.queue_le id) (by omega)
  have hserver := h.server
  have htx := h.tx cmd.1
  have hrx := h.rx cmd.1
  exact ⟨⟨by omega, h.messages cmd List.mem_cons_self⟩, by omega, by omega, by omega, by omega⟩

/-- What the texts of a request add, if the server takes them. -/
theorem texts_of_name {username : Bytes} {r : Request}
    (h : username ∈ Registrar.requestUsername r) : texts r = [username] := by
  match r with
  | .register name =>
      rw [Registrar.requestUsername, Option.mem_some_iff] at h
      rw [texts, h]

/-- The queues after a request hold what they held, and at most its text. -/
theorem queue_le_reply {db : Database} (r : Request) {n : Nat}
    (h : ∀ U, recordsSize ((db.queueOf U).map Msg.msg) ≤ n) (U : UserId) :
    recordsSize (((reply P db r).db.queueOf U).map Msg.msg) ≤ n + recordsSize (texts r) := by
  have hU := h U
  match r with
  | .register username =>
      show recordsSize (((db.registerUser username).2.queueOf U).map Msg.msg) ≤ _
      rw [queueOf_registerUser]
      split_ifs
      · exact Nat.zero_le _
      · omega
  | .users id =>
      show recordsSize (((usersReply P db id).db.queueOf U).map Msg.msg) ≤ _
      rw [usersReply_db]
      omega
  | .send sourceId targetId msg =>
      show recordsSize (((sendEffect db sourceId targetId msg).2.queueOf U).map Msg.msg) ≤ _
      rw [queueOf_sendEffect, List.map_append, recordsSize_append]
      split_ifs <;> simp [texts] <;> omega
  | .recv id =>
      show recordsSize (((recvReply P db id).db.queueOf U).map Msg.msg) ≤ _
      rw [recvReply]
      split_ifs with hex
      · exact hU
      · rw [queueOf_clearMsgs (by simpa using hex)]
        split_ifs
        · exact Nat.zero_le _
        · exact hU

/-- **One step** loads the server with its texts. -/
theorem Loaded.step {outcome : Outcome} (h : Loaded bound past names net (cmd :: cmds))
    (hstep : net.step P cmd = .ok (net', outcome)) :
    Loaded bound (past ++ texts cmd.2) (names ++ (Registrar.requestUsername cmd.2).toList) net'
      cmds := by
  have hfits : Fits P net cmd := h.fits
  obtain ⟨rfl, -⟩ := step_outcome hfits h.short hstep
  have htotal := h.total
  rw [List.flatMap_cons, recordsSize_append] at htotal
  have hsizes := sameSizes_after hfits
  have hnames : (operation net.server.db cmd.2).toList.filterMap Op.username?
      = (Registrar.requestUsername cmd.2).toList := by
    rw [← username_operation net.server.db cmd.2]
    rcases operation net.server.db cmd.2 with _ | op
    · rfl
    · rcases hop : op.username? with _ | username <;> simp [hop]
  have hloaded : recordsSize (names ++ (Registrar.requestUsername cmd.2).toList)
      ≤ recordsSize (past ++ texts cmd.2) := by
    have hpast := h.names_le
    rw [recordsSize_append, recordsSize_append]
    rcases hname : Registrar.requestUsername cmd.2 with _ | username
    · show recordsSize names + 0 ≤ _
      omega
    · rw [texts_of_name (hname ▸ Option.mem_some_self username)]
      exact Nat.add_le_add_right hpast _
  have hcount : (names ++ (Registrar.requestUsername cmd.2).toList).length ≤ 2 ^ 32 := by
    have height := eight_mul_length_le (names ++ (Registrar.requestUsername cmd.2).toList)
    have hsmall := h.small
    have hpast := recordsSize_append past (texts cmd.2)
    omega
  refine ⟨?_, h.small, ?_, ?_, hloaded, ?_,
    shortMsgs_after hfits h.short, ?_, ?_, ?_⟩
  · rw [recordsSize_append]
    omega
  · exact fun cmd' hcmd' => h.messages cmd' (List.mem_cons_of_mem _ hcmd')
  · show (reply P net.server.db cmd.2).db.Named _
    rw [reply_db, ← hnames]
    exact h.named.foldl _ (by rw [hnames]; exact hcount)
  · intro U
    rw [recordsSize_append]
    exact queue_le_reply cmd.2 h.queue_le U
  · rw [hsizes.server]
    exact h.server
  · intro i
    rw [hsizes.tx]
    exact h.tx i
  · intro i
    rw [hsizes.rx]
    exact h.rx i

omit [DecidableEq ι] in
theorem Roomy.loaded (h : Roomy net cmds) : Loaded (capacity cmds) [] [] net cmds where
  total := by simp [capacity]
  small := h.small
  messages := h.messages
  named := h.empty ▸ Named.empty
  names_le := Nat.le_refl _
  queue_le := by
    intro U
    rw [h.empty, queueOf_empty]
    exact Nat.le_refl _
  short := by
    intro U m hm
    rw [h.empty, queueOf_empty] at hm
    cases hm
  server := h.server
  tx := h.tx
  rx := h.rx

omit [DecidableEq ι] in
theorem registrations_le_of_capacity (h : capacity cmds < 2 ^ 32) :
    registrations cmds ≤ 2 ^ 32 := by
  have height := eight_mul_length_le (cmds.flatMap (texts ·.2))
  have hle : registrations cmds ≤ (cmds.flatMap (texts ·.2)).length := by
    clear h height
    induction cmds with
    | nil => exact Nat.le_refl 0
    | cons cmd cmds ih =>
        have hone : (if cmd.2.isRegister then 1 else 0) ≤ (texts cmd.2).length := by
          obtain ⟨i, r⟩ := cmd
          cases r <;> simp [Request.isRegister, texts]
        have hcons : registrations (cmd :: cmds)
            = registrations cmds + if cmd.2.isRegister then 1 else 0 := List.countP_cons
        rw [hcons, List.flatMap_cons, List.length_append]
        omega
  rw [capacity] at h
  omega

/-- Every Recv request is under the id of an earlier registration; `n` came before. -/
def pollsHeld : Nat → List (ι × Request) → Bool
  | _, [] => true
  | n, (_, .register _) :: cmds => pollsHeld (n + 1) cmds
  | n, (_, .users _) :: cmds => pollsHeld n cmds
  | n, (_, .send _ _ _) :: cmds => pollsHeld n cmds
  | n, (_, .recv id) :: cmds => decide (id.toNat < n) && pollsHeld n cmds

omit [DecidableEq ι] in
theorem pollsHeld_cons {n : Nat} (h : pollsHeld n (cmd :: cmds) = true) :
    (∀ id, cmd.2 = .recv id → id.toNat < n) ∧
      pollsHeld (n + (Registrar.requestUsername cmd.2).toList.length) cmds = true := by
  obtain ⟨i, r⟩ := cmd
  match r with
  | .register username => exact ⟨by simp, h⟩
  | .users id => exact ⟨by simp, h⟩
  | .send sourceId targetId msg => exact ⟨by simp, h⟩
  | .recv id =>
      rw [pollsHeld, Bool.and_eq_true, decide_eq_true_iff] at h
      exact ⟨by rintro id' ⟨⟩; exact h.1, h.2⟩

/-- Buffers of the capacity are enough for every packet of the run, and every poll is for
somebody. -/
theorem Roomy.smooth (h : Roomy net cmds) (hpolls : pollsHeld 0 cmds = true) :
    Along (step P) (Smooth P) net cmds :=
  along_of_invariant
    (I := fun net rest => ∃ past names, Loaded (capacity cmds) past names net rest ∧
      pollsHeld names.length rest = true)
    (fun net cmd _ ⟨_, names, hloaded, hpolls⟩ => by
      refine ⟨hloaded.fits, ?_⟩
      have hheld := (pollsHeld_cons hpolls).1
      obtain ⟨i, r⟩ := cmd
      cases r with
      | recv id => exact (hloaded.named.counted.exists_iff id).mpr (hheld id rfl)
      | _ => trivial)
    (fun _ _ _ _ _ ⟨past, names, hloaded, hpolls⟩ hstep =>
      ⟨past ++ _, names ++ _, hloaded.step hstep, by
        rw [List.length_append]
        exact (pollsHeld_cons hpolls).2⟩)
    ⟨[], [], h.loaded, hpolls⟩

/-- **Capacity.** Let every message have a text, every Recv request come after the
registration it is for, and every buffer have fifteen bytes and, for each name and message of
the run, eight and its length. Then no request fails, whoever makes it, every Send is answered
with its right status, and what is sent to a user is delivered or waits: once, in order. -/
theorem exactlyOnce_of_capacity (h : Roomy net cmds) (hpolls : pollsHeld 0 cmds = true) :
    ExactlyOnce P net cmds := by
  have hsmooth : Along (step P) (Smooth P) net cmds := h.smooth hpolls
  have hassumed : Assumed P net cmds :=
    ⟨h.empty, hsmooth.imp fun _ _ hp => hp.1, registrations_le_of_capacity h.small⟩
  refine (exactlyOnce_iff hassumed).mpr (hsmooth.imp fun net cmd hp => ?_)
  have hheld := hp.2.exists
  obtain ⟨i, r⟩ := cmd
  cases r with
  | recv id =>
      intro hex
      rw [hheld id rfl] at hex
      cases hex
  | _ => trivial

/-- Two clients, each with buffers of 42 bytes. -/
theorem exactlyOnce_of_capacity_two_clients :
    let cmds : List (Bool × Request) := [(true, .register [65]), (false, .register [66]),
      (false, .users 1), (true, .send 0 1 [104]), (false, .recv 1), (true, .recv 0)]
    let net : Net Bool :=
      ⟨⟨.empty, List.replicate 42 0⟩, fun _ => ⟨List.replicate 42 0, List.replicate 42 0⟩⟩
    capacity cmds = 42 ∧ ExactlyOnce .littleEndian net cmds := by
  intro cmds net
  have hcapacity : capacity cmds = 42 := by decide
  have hlength : capacity cmds ≤ (List.replicate 42 (0 : UInt8)).length := by decide
  exact ⟨hcapacity, exactlyOnce_of_capacity ⟨rfl, by decide, by omega, hlength,
    fun _ => hlength, fun _ => hlength⟩ (by decide)⟩

end Net

end ChatApp
