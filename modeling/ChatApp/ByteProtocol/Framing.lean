import ChatApp.ByteProtocol.Requests

set_option autoImplicit false

/-! # Framing of the byte protocol's responses

The count `parse` returns is what is sent from `tx_buffer_`, and the header's length is what
a client would skip to reach the next packet. `Framed` says that both describe the bytes the
call has written. The two parsers that accumulate the length by hand start it at the size of
the header: their positive responses claim five bytes more than they hold
(`reply_framed_iff`, `framed_iff`).
-/

namespace ChatApp

open Lib

namespace MccServer

/-- On this request `parse` returns `ret` and writes the bytes `w`, and no others, at the
start of `tx_buffer_`: whatever the buffer held, it holds `w` and behind it what it held. -/
def Writes (P : Platform) (db : Database) (data : Bytes) (ret : Nat) (w : Bytes) : Prop :=
  ∃ db', ∀ txBuffer : Bytes, w.length ≤ txBuffer.length →
    parse P ⟨db, txBuffer⟩ data = .ok (ret, ⟨db', w ++ txBuffer.drop w.length⟩)

/-- A response and the count returned for it: the count is the number of its bytes, and its
header's length is the number of bytes behind the header. -/
def WellFramed (P : Platform) (ret : Nat) (w : Bytes) : Prop :=
  ret = w.length ∧
    ∃ h, Header.read P.byteOrder w = .ok h ∧ w.length = sizeofHeader + h.len.toNat

/-- The response to a packet is well framed. -/
def Framed (P : Platform) (db : Database) (data : Bytes) : Prop :=
  ∃ ret w, Writes P db data ret w ∧ WellFramed P ret w

variable (P : Platform)

/-- A write that leaves the bytes behind it alone has one length. -/
theorem length_le_of_writes {w w' : Bytes}
    (h : ∀ buf : Bytes, w.length ≤ buf.length → w'.length ≤ buf.length →
      w ++ buf.drop w.length = w' ++ buf.drop w'.length) : w'.length ≤ w.length := by
  by_contra hlt
  rw [Nat.not_le] at hlt
  -- The byte of the longer write that lies behind the shorter one would be any byte.
  have hbyte (b : UInt8) : w'[w.length]? = some b := by
    have hb := h (List.replicate w'.length b) (by simp; omega) (by simp)
    have hget := congrArg (fun l => l[w.length]?) hb
    simp only [List.getElem?_append_right (Nat.le_refl w.length), Nat.sub_self,
      List.getElem?_append_left hlt, List.drop_replicate] at hget
    rw [← hget, List.getElem?_replicate, if_pos (by omega)]
  have h01 := (hbyte 0).symm.trans (hbyte 1)
  simp at h01

/-- What `parse` writes and returns is determined by the request and the database. -/
theorem Writes.unique {db : Database} {data : Bytes} {ret ret' : Nat} {w w' : Bytes}
    (h : Writes P db data ret w) (h' : Writes P db data ret' w') : ret = ret' ∧ w = w' := by
  obtain ⟨db₁, h⟩ := h
  obtain ⟨db₂, h'⟩ := h'
  have hboth (buf : Bytes) (hw : w.length ≤ buf.length) (hw' : w'.length ≤ buf.length) :
      ret = ret' ∧ w ++ buf.drop w.length = w' ++ buf.drop w'.length := by
    have heq := (h buf hw).symm.trans (h' buf hw')
    simp only [Except.ok.injEq, Prod.mk.injEq, MccServer.mk.injEq] at heq
    exact ⟨heq.1, heq.2.2⟩
  have hle := length_le_of_writes fun buf hw hw' => (hboth buf hw hw').2
  have hle' := length_le_of_writes fun buf hw' hw => (hboth buf hw hw').2.symm
  obtain ⟨hret, hbuf⟩ := hboth (List.replicate w.length 0) (by simp) (by simp; omega)
  rw [List.append_inj_left hbuf (by omega)]
  exact ⟨hret, rfl⟩

/-- On a request `parse` writes the bytes of its reply. -/
theorem writes_reply {db : Database} {data : Bytes} {r : Request}
    (hr : requestIn P data = .ok r) :
    Writes P db data (reply P db r).ret (reply P db r).bytes :=
  ⟨(reply P db r).db, fun txBuffer hle => by rw [parse_eq, hr, ok_bind, respond_of_le hle]⟩

theorem framed_iff_reply {db : Database} {data : Bytes} {r : Request}
    (hr : requestIn P data = .ok r) :
    Framed P db data ↔ WellFramed P (reply P db r).ret (reply P db r).bytes := by
  constructor
  · rintro ⟨ret, w, hw, hframed⟩
    obtain ⟨rfl, rfl⟩ := hw.unique P (writes_reply P hr)
    exact hframed
  · intro hframed
    exact ⟨_, _, writes_reply P hr, hframed⟩

/-! ## Which replies are well framed -/

/-- A reply of header and payload is well framed exactly when the header's length and the
count returned are those of the payload. -/
theorem wellFramed_iff (type : PacketType) (len : Length) (payload : Bytes) (ret : Nat) :
    WellFramed P ret (Header.bytes P.byteOrder ⟨type, len⟩ ++ payload) ↔
      ret = sizeofHeader + payload.length ∧ len.toNat = payload.length := by
  simp only [WellFramed, Header.read_bytes, Except.ok.injEq, exists_eq_left',
    List.length_append, Header.bytes_length, Nat.add_left_cancel_iff]
  exact and_congr_right fun _ => eq_comm

/-- A payload length that was started at the header's size is never the payload's, however
often the 32-bit word has wrapped. -/
theorem overcounted_ne (payload : Bytes) :
    (UInt32.ofNat (sizeofHeader + payload.length)).toNat ≠ payload.length := by
  rw [UInt32.toNat_ofNat', sizeofHeader]
  omega

theorem registerReply_wellFramed (db : Database) (username : Bytes) :
    WellFramed P (registerReply P db username).ret (registerReply P db username).bytes := by
  refine (wellFramed_iff P _ _ _ _).mpr ⟨?_, ?_⟩ <;> simp [registerReply]

theorem negativeReply_wellFramed (db : Database) (type : PacketType) :
    WellFramed P (negativeReply P db type).ret (negativeReply P db type).bytes :=
  (wellFramed_iff P _ _ _ _).mpr ⟨rfl, rfl⟩

theorem sendReply_wellFramed (db : Database) (sourceId targetId : UserId) (msg : Bytes) :
    WellFramed P (sendReply P db sourceId targetId msg).ret
      (sendReply P db sourceId targetId msg).bytes :=
  (wellFramed_iff P _ _ _ _).mpr ⟨rfl, rfl⟩

theorem usersReply_wellFramed_iff (db : Database) (id : UserId) :
    WellFramed P (usersReply P db id).ret (usersReply P db id).bytes ↔
      ¬(db.userExists id = true ∧ db.getNumUsers ≠ 1) := by
  have hone : db.getNumUsers - 1 = 0 ↔ db.getNumUsers = 1 := word_sub_eq_zero_iff
  unfold usersReply
  by_cases hex : db.userExists id = true
  · by_cases hnum : db.getNumUsers = 1
    · have hframed := (wellFramed_iff P .kRespUsers 5 ([0] ++ P.byteOrder.toBytes 0)
        (sizeofHeader + 5)).mpr ⟨by simp, by simp⟩
      simpa [hex, hnum] using hframed
    · simp only [hex, Bool.not_true, Bool.false_eq_true, if_false, if_neg (hone.not.mpr hnum)]
      refine iff_of_false (fun h => ?_) (fun h => h ⟨trivial, hnum⟩)
      exact overcounted_ne _ ((wellFramed_iff P _ _ _ _).mp h).2
  · simpa [hex] using negativeReply_wellFramed P db .kRespUsers

theorem recvReply_wellFramed_iff (db : Database) (id : UserId) :
    WellFramed P (recvReply P db id).ret (recvReply P db id).bytes ↔
      ¬db.userExists id = true := by
  unfold recvReply
  by_cases hex : db.userExists id = true
  · simp only [hex, Bool.not_true, Bool.false_eq_true, if_false]
    refine iff_of_false (fun h => ?_) (fun h => h trivial)
    exact overcounted_ne _ ((wellFramed_iff P _ _ _ _).mp h).2
  · simpa [hex] using negativeReply_wellFramed P db .kRespRecv

/-! ## Which packets are answered in frame -/

/-- A Users request by a registered user who is not alone, or a Recv request by a registered
user. -/
def AnsweredWithRecords (P : Platform) (db : Database) (data : Bytes) : Prop :=
  ∃ id, db.userExists id = true ∧
    (MccClient.usersBytes P.byteOrder id <+: data ∧ db.getNumUsers ≠ 1 ∨
      MccClient.recvBytes P.byteOrder id <+: data)

/-- **The response is in frame on every path but two**: the general path of Users and the
positive path of Recv. -/
theorem framed_iff {db : Database} {data : Bytes} (haccepted : Accepts P db data) :
    Framed P db data ↔ ¬AnsweredWithRecords P db data := by
  obtain ⟨r, hr⟩ := (accepts_iff_requestIn P db data).mp haccepted
  -- The bytes of an encoded request at the front say the same as what the parser finds.
  have husers (id : UserId) : MccClient.usersBytes P.byteOrder id <+: data ↔ r = .users id := by
    constructor
    · rintro ⟨rest, rfl⟩
      rw [requestIn_usersBytes] at hr
      exact (Except.ok.inj hr).symm
    · rintro rfl
      exact usersBytes_prefix P hr
  have hrecv (id : UserId) : MccClient.recvBytes P.byteOrder id <+: data ↔ r = .recv id := by
    constructor
    · rintro ⟨rest, rfl⟩
      rw [requestIn_recvBytes] at hr
      exact (Except.ok.inj hr).symm
    · rintro rfl
      exact recvBytes_prefix P hr
  simp only [AnsweredWithRecords, husers, hrecv]
  rw [framed_iff_reply P hr]
  cases r with
  | register username => simpa [reply] using registerReply_wellFramed P db username
  | send sourceId targetId msg =>
      simpa [reply] using sendReply_wellFramed P db sourceId targetId msg
  | users id =>
      rw [reply, usersReply_wellFramed_iff]
      simp
  | recv id =>
      rw [reply, recvReply_wellFramed_iff]
      simp

theorem framed_of_unknown_user :
    Framed .littleEndian .empty (MccClient.recvBytes .little 7) := by
  refine (framed_iff .littleEndian ?_).mpr ?_
  · exact (accepts_iff_requestIn _ _ _).mpr ⟨_, requestIn_recvBytes .littleEndian 7 []⟩
  · rintro ⟨id, hex, -⟩
    simp [Database.userExists] at hex

/-- The first user asks for its messages: the response's ten bytes are returned as fifteen.
-/
theorem not_framed_recv_first_user :
    let db := (Database.empty.registerUser []).2
    Database.Reachable db ∧ Accepts .littleEndian db (MccClient.recvBytes .little 0) ∧
      ¬Framed .littleEndian db (MccClient.recvBytes .little 0) := by
  have hreq := requestIn_recvBytes .littleEndian 0 []
  refine ⟨Database.Reachable.empty.apply (.register []), ?_, ?_⟩
  · exact (accepts_iff_requestIn _ _ _).mpr ⟨_, hreq⟩
  · intro hframed
    refine (recvReply_wellFramed_iff .littleEndian _ 0).mp
      ((framed_iff_reply .littleEndian hreq).mp hframed) ?_
    rw [Database.userExists, Database.find_registerUser]
    rfl

end MccServer

end ChatApp
