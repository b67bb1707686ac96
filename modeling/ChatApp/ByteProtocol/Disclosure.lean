import ChatApp.ByteProtocol.Commute
import ChatApp.ByteProtocol.Framing
import ChatApp.Lib.Run

set_option autoImplicit false

/-! # What the server sends besides its responses

A response is written at the front of `tx_buffer_`, over what was there, and the count that
the server returns says how much of the buffer is sent. On two paths the count is five bytes
more than the response (`ret_eq`), so five bytes of earlier responses go out with it, to
whoever asked: at each offset those of the last response that was long enough to reach it
(`disclosed_of_run`).
-/

namespace ChatApp

open Lib

/-! ## A buffer written from the front -/

/-- `new` written at the front of `old`. -/
def overwrite (old new : Bytes) : Bytes := new ++ old.drop new.length

theorem overwrite_length {old new : Bytes} (h : new.length ≤ old.length) :
    (overwrite old new).length = old.length := by
  rw [overwrite, List.length_append, List.length_drop]
  omega

/-- The last of some writes that reached the offset `k`, or else what was there before. -/
def latest (k : Nat) (old : Bytes) (news : List Bytes) : Bytes :=
  (news.reverse.find? fun new => k < new.length).getD old

/-- **What a buffer holds**: at each offset what the last write that reached it put there. -/
theorem getElem?_foldl_overwrite (old : Bytes) (news : List Bytes) (k : Nat) :
    (news.foldl overwrite old)[k]? = (latest k old news)[k]? := by
  induction news using List.reverseRecOn with
  | nil => rfl
  | append_singleton news new ih =>
      rw [List.foldl_append, List.foldl_cons, List.foldl_nil, latest, List.reverse_append,
        List.reverse_singleton, List.singleton_append, overwrite]
      by_cases hk : k < new.length
      · rw [List.getElem?_append_left hk, List.find?_cons_of_pos (by simpa using hk)]
        rfl
      · rw [List.find?_cons_of_neg (by simpa using hk), List.getElem?_append_right (by omega),
          List.getElem?_drop, show new.length + (k - new.length) = k by omega, ih]
        rfl

namespace MccServer

variable {P : Platform} {db : Database} {r : Request}

/-! ## The count -/

/-- How many bytes the count returned goes beyond the response. -/
def overcount (db : Database) : Request → Nat
  | .register _ => 0
  | .users id => if db.userExists id && db.getNumUsers != 1 then sizeofHeader else 0
  | .send _ _ _ => 0
  | .recv id => if db.userExists id then sizeofHeader else 0

/-- The count is right but for a header where the response carries records. -/
theorem ret_eq (h : (reply P db r).bytes.length < 2 ^ 32) :
    (reply P db r).ret = (reply P db r).bytes.length + overcount db r := by
  have hrecords (type : PacketType) (payload : Bytes)
      (hlt : (Header.bytes P.byteOrder ⟨type, UInt32.ofNat (sizeofHeader + payload.length)⟩
        ++ payload).length < 2 ^ 32) :
      sizeofHeader + (UInt32.ofNat (sizeofHeader + payload.length)).toNat
        = (Header.bytes P.byteOrder ⟨type, UInt32.ofNat (sizeofHeader + payload.length)⟩
          ++ payload).length + sizeofHeader := by
    rw [List.length_append, Header.bytes_length] at hlt ⊢
    rw [UInt32.toNat_ofNat', Nat.mod_eq_of_lt hlt]
    omega
  have hone : db.getNumUsers - 1 = 0 ↔ db.getNumUsers = 1 := word_sub_eq_zero_iff
  match r with
  | .register username => simp [reply, registerReply, overcount]
  | .send sourceId targetId msg => simp [reply, sendReply, overcount]
  | .users id =>
      simp only [reply, usersReply, overcount] at h ⊢
      by_cases hex : db.userExists id = true
      · by_cases hnum : db.getNumUsers = 1
        · simp [hex, hnum]
        · have hnum' : ¬db.getNumUsers - 1 = 0 := mt hone.mp hnum
          simp only [hex, hnum', Bool.not_true, Bool.false_eq_true, if_false] at h ⊢
          simpa [hnum] using hrecords .kRespUsers _ h
      · simp [hex, negativeReply]
  | .recv id =>
      simp only [reply, recvReply, overcount] at h ⊢
      by_cases hex : db.userExists id = true
      · simp only [hex, Bool.not_true, Bool.false_eq_true, if_false] at h ⊢
        simpa using hrecords .kRespRecv _ h
      · simp [hex, negativeReply]

/-! ## Runs -/

/-- A packet and the bytes sent in return. -/
def sendBack (P : Platform) (s : MccServer) (data : Bytes) : Except Fault (MccServer × Bytes) := do
  let (resp, s) ← exchange P s data
  return (s, resp)

/-- The response that a step writes. -/
def responseTo (P : Platform) (e : Entry MccServer Bytes Bytes) : Bytes :=
  match requestIn P e.input with
  | .ok r => (reply P e.before.db r).bytes
  | .error _ => []

variable {s s' : MccServer} {data resp : Bytes}

theorem sendBack_eq_ok (h : sendBack P s data = .ok (s', resp)) :
    ∃ r, requestIn P data = .ok r ∧ (reply P s.db r).FitsIn s.txBuffer.length ∧
      s' = ⟨(reply P s.db r).db, overwrite s.txBuffer (reply P s.db r).bytes⟩ ∧
      resp = s'.txBuffer.take (reply P s.db r).ret := by
  match hr : requestIn P data with
  | .error e => simp [sendBack, exchange, parse_eq, hr] at h
  | .ok r =>
      rw [sendBack, exchange_eq hr] at h
      split_ifs at h with hfits
      · simp only [ok_bind, pure_eq_ok, Except.ok.injEq, Prod.mk.injEq] at h
        obtain ⟨rfl, rfl⟩ := h
        exact ⟨r, rfl, hfits, rfl, rfl⟩
      · simp at h

/-- The buffer after a run. -/
theorem txBuffer_of_run {datas : List Bytes} {log : List (Entry MccServer Bytes Bytes)}
    (hrun : run (sendBack P) s datas = .ok (s', log)) :
    s'.txBuffer = (log.map (responseTo P)).foldl overwrite s.txBuffer ∧
      s'.txBuffer.length = s.txBuffer.length := by
  induction datas generalizing s log with
  | nil =>
      obtain ⟨rfl, rfl⟩ : s = s' ∧ [] = log := by simpa [run] using hrun
      exact ⟨rfl, rfl⟩
  | cons data datas ih =>
      obtain ⟨t, resp, log', hstep, hrest, rfl⟩ := run_cons_eq_ok.mp hrun
      obtain ⟨r, hr, hfits, rfl, -⟩ := sendBack_eq_ok hstep
      obtain ⟨hbuf, hlength⟩ := ih hrest
      have hle : (reply P s.db r).bytes.length ≤ s.txBuffer.length :=
        (Nat.le_max_left _ _).trans hfits
      have hresponse : responseTo P ⟨s, data, resp⟩ = (reply P s.db r).bytes := by
        simp only [responseTo, hr]
      refine ⟨?_, hlength.trans (overwrite_length hle)⟩
      rw [hbuf, List.map_cons, List.foldl_cons, hresponse]

/-- **What is sent besides a response.** A packet is answered with the response and, where it
carries records, five bytes more: at each offset that of the last response that reached it,
and where none did, of the buffer as it was at first. -/
theorem disclosed_of_run {datas : List Bytes}
    {log earlier later : List (Entry MccServer Bytes Bytes)} {e : Entry MccServer Bytes Bytes}
    (hbuf : s.txBuffer.length < 2 ^ 32)
    (hrun : run (sendBack P) s datas = .ok (s', log)) (hlog : log = earlier ++ e :: later) :
    ∃ r, requestIn P e.input = .ok r ∧ responseTo P e <+: e.output ∧
      e.output.length = (responseTo P e).length + overcount e.before.db r ∧
      ∀ k, (responseTo P e).length ≤ k → k < e.output.length →
        e.output[k]? = (latest k s.txBuffer (earlier.map (responseTo P)))[k]? := by
  obtain ⟨hbefore, hlength⟩ := txBuffer_of_run (run_of_log_eq (hlog ▸ hrun))
  obtain ⟨t, hstep⟩ := step_of_mem_log hrun
    (hlog ▸ List.mem_append_right earlier List.mem_cons_self)
  obtain ⟨r, hr, hfits, rfl, hout⟩ := sendBack_eq_ok hstep
  have hresponse : responseTo P e = (reply P e.before.db r).bytes := by
    simp only [responseTo, hr]
  have hle : (responseTo P e).length ≤ e.before.txBuffer.length := by
    rw [hresponse]
    exact (Nat.le_max_left _ _).trans hfits
  have hret : (reply P e.before.db r).ret = (responseTo P e).length + overcount e.before.db r := by
    rw [hresponse]
    exact ret_eq (by rw [← hresponse]; omega)
  have hretle : (reply P e.before.db r).ret ≤ e.before.txBuffer.length :=
    (Nat.le_max_right _ _).trans hfits
  rw [← hresponse, hret] at hout
  have houtlength : e.output.length = (responseTo P e).length + overcount e.before.db r := by
    rw [hout, List.length_take_of_le (by rw [overwrite_length hle]; omega)]
  refine ⟨r, hr, ?_, houtlength, fun k hk hlt => ?_⟩
  · rw [hout, overwrite, List.take_append, List.take_of_length_le (Nat.le_add_right _ _)]
    exact List.prefix_append _ _
  · calc e.output[k]?
        = (overwrite e.before.txBuffer (responseTo P e))[k]? := by
          rw [hout, List.getElem?_take_of_lt (houtlength ▸ hlt)]
      _ = e.before.txBuffer[k]? := by
          rw [overwrite, List.getElem?_append_right hk, List.getElem?_drop,
            show (responseTo P e).length + (k - (responseTo P e).length) = k by omega]
      _ = (latest k s.txBuffer (earlier.map (responseTo P)))[k]? := by
          rw [hbefore, getElem?_foldl_overwrite]

/-- User 1 has read a message of six bytes. User 0 asks for the users and is sent, behind the
one record, the last five of them. -/
theorem disclosed_of_run_message :
    let datas : List Bytes := [[0, 1, 0, 0, 0, 65], [0, 1, 0, 0, 0, 66],
      [2, 14, 0, 0, 0, 0, 0, 0, 0, 1, 0, 0, 0, 115, 101, 99, 114, 101, 116],
      [3, 4, 0, 0, 0, 1, 0, 0, 0], [1, 4, 0, 0, 0, 0, 0, 0, 0]]
    let s : MccServer := ⟨.empty, List.replicate 40 0⟩
    ∃ s' earlier e, run (sendBack .littleEndian) s datas = .ok (s', earlier ++ [e]) ∧
      e.output.drop 18 = [66, 101, 99, 114, 101, 116] ∧
      ∃ r, requestIn .littleEndian e.input = .ok r ∧ responseTo .littleEndian e <+: e.output ∧
        e.output.length = (responseTo .littleEndian e).length + overcount e.before.db r ∧
        ∀ k, (responseTo .littleEndian e).length ≤ k → k < e.output.length →
          e.output[k]? = (latest k s.txBuffer (earlier.map (responseTo .littleEndian)))[k]? := by
  intro datas s
  have hok : (run (sendBack .littleEndian) s datas).map
      (fun x => x.2.getLast?.map fun e => e.output.drop 18)
        = .ok (some [66, 101, 99, 114, 101, 116]) := by
    decide +kernel
  obtain ⟨⟨s', log⟩, hrun, hlast⟩ := map_eq_ok.mp hok
  obtain ⟨e, he, hout⟩ := Option.map_eq_some_iff.mp hlast
  obtain ⟨earlier, rfl⟩ := List.getLast?_eq_some_iff.mp he
  exact ⟨s', earlier, e, hrun, hout, disclosed_of_run (by decide) hrun rfl⟩

end MccServer

end ChatApp
