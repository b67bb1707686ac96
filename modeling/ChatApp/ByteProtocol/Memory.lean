import ChatApp.ByteProtocol.Requests

set_option autoImplicit false

/-! # Memory safety of the byte protocol

Neither end compares a length it reads from a packet with the number of bytes it received.
For each of them: on which bytes it stays inside its block (`accepts_iff` for the server's
`parse`, `handleRespRegister_isOk_iff` and its siblings for the client's decoders).
-/

namespace ChatApp

open Lib

namespace MccServer

variable (P : Platform)

/-! ## The server -/

/-- The bytes hold a header, and behind it the payload that its type reads: for a request as
many bytes as the length says, and a length the request can have; for any other type nothing.
-/
def WellSized (bo : ByteOrder) (data : Bytes) : Prop :=
  ∃ h, Header.read bo data = .ok h ∧
    match h.type with
    | .kRequestRegister => sizeofHeader + h.len.toNat ≤ data.length
    | .kRequestUsers =>
        h.len = kReqUsersPayloadLen ∧ sizeofHeader + h.len.toNat ≤ data.length
    | .kRequestSend =>
        kReqSendMinPayloadLen < h.len ∧ sizeofHeader + h.len.toNat ≤ data.length
    | .kRequestRecv =>
        h.len = kReqRecvPayloadLen ∧ sizeofHeader + h.len.toNat ≤ data.length
    | _ => True

/-- A request for an id: the assertion on the length, and the four bytes read. -/
theorem idRequest_isOk {bo : ByteOrder} {len : Length} {payload : Bytes}
    {f : UserId → Request} :
    (∃ r, (assertThat (len == 4) >>= fun _ => read32 bo payload >>= fun id =>
        (.ok (f id) : Except Fault Request)) = .ok r) ↔ len = 4 ∧ len.toNat ≤ payload.length := by
  by_cases hlen : len = 4
  · subst hlen
    have h4 : (4 : Length).toNat = 4 := rfl
    simp only [beq_self_eq_true, assertThat_true, ok_bind, true_and, h4]
    by_cases hle : 4 ≤ payload.length
    · simp [read32_of_le hle, hle]
    · simp [read32_of_lt (Nat.not_le.mp hle), hle]
  · simp [beq_eq_false_iff_ne.mpr hlen, hlen]

/-- A Send request: the assertion on the length, and the three reads. The assertion is what
keeps the subtraction from wrapping. -/
theorem sendRequest_isOk {bo : ByteOrder} {len : Length} {payload : Bytes} :
    (∃ r, (assertThat (decide (8 < len.toNat)) >>= fun _ =>
        read32 bo payload >>= fun sourceId => read32 bo (payload.drop 4) >>= fun targetId =>
        readBytes (payload.drop 8) (len.toNat - 8) >>= fun msg =>
        (.ok (.send sourceId targetId msg) : Except Fault Request)) = .ok r) ↔
      8 < len.toNat ∧ len.toNat ≤ payload.length := by
  by_cases hlen : 8 < len.toNat
  · by_cases hle : len.toNat ≤ payload.length
    · have hsrc : 4 ≤ payload.length := by omega
      have htrgt : 4 ≤ (payload.drop 4).length := by rw [List.length_drop]; omega
      have hmsg : len.toNat - 8 ≤ (payload.drop 8).length := by rw [List.length_drop]; omega
      simp [hlen, hle, read32_of_le hsrc, read32_of_le htrgt, readBytes_of_le hmsg]
    · have hmsg : (payload.drop 8).length < len.toNat - 8 := by rw [List.length_drop]; omega
      simp [bind_eq_ok, readBytes_of_lt hmsg, hle]
  · simp [hlen]

/-- **`parse` stays inside the packet, and passes its assertions, exactly on packets that are
as long as their header says** and as their type requires. -/
theorem accepts_iff (db : Database) (data : Bytes) :
    Accepts P db data ↔ WellSized P.byteOrder data := by
  rw [accepts_iff_requestIn, WellSized]
  -- Without a header nothing is found; with one the type decides what is read behind it.
  cases hread : Header.read P.byteOrder data with
  | error e => simp [requestIn, hread]
  | ok h =>
      have hsize := (Header.bytes_prefix hread).length_le
      rw [Header.bytes_length] at hsize
      have hfits : sizeofHeader + h.len.toNat ≤ data.length ↔
          h.len.toNat ≤ (data.drop sizeofHeader).length := by
        rw [List.length_drop]; omega
      simp only [requestIn, hread, ok_bind, Except.ok.injEq, exists_eq_left', hfits, pure_eq_ok]
      cases h.type with
      | kRequestRegister =>
          by_cases hle : h.len.toNat ≤ (data.drop sizeofHeader).length
          · simp only [readBytes_of_le hle, hle, ok_bind, Except.ok.injEq, exists_eq']
          · simp only [readBytes_of_lt (Nat.not_le.mp hle), hle, error_bind, reduceCtorEq,
              exists_false]
      | kRequestUsers => exact idRequest_isOk
      | kRequestSend => exact sendRequest_isOk
      | kRequestRecv => exact idRequest_isOk
      | _ => simp only [Except.ok.injEq, exists_eq']

/-- Five bytes that announce a username of `2 ^ 32 - 1` bytes. -/
theorem not_accepts_bare_header :
    Database.Reachable .empty ∧ ¬Accepts .littleEndian .empty [0, 255, 255, 255, 255] := by
  refine ⟨.empty, fun h => ?_⟩
  obtain ⟨r, hr⟩ := (accepts_iff_requestIn _ _ _).mp h
  have herr : requestIn .littleEndian [0, 255, 255, 255, 255] = .error .outOfBounds := by decide
  rw [herr] at hr
  cases hr

end MccServer

/-! ## The client -/

namespace MccClient

/-- No decoder reads outside `rx_buffer_`. -/
structure ReadsInside (bo : ByteOrder) (c : MccClient) : Prop where
  register : ∀ id, ∃ out, c.handleRespRegister bo id = .ok out
  users : ∀ nameToId, ∃ out, c.handleRespUsers bo nameToId = .ok out
  send : ∀ stat, ∃ out, c.handleRespSend bo stat = .ok out
  recv : ∀ msgs, ∃ out, c.handleRespRecv bo msgs = .ok out

/-- The bytes hold a count and as many records. -/
def RecordsFit (bo : ByteOrder) (payload : Bytes) : Prop :=
  ∃ n rs, bo.toBytes n <+: payload ∧ RecordsIn bo n.toNat (payload.drop 4) rs

/-- The buffer holds a header, and behind it what a response of its type consists of: the
response value, and for a positive one what belongs to it. A Recv response is read as a
positive one whatever its response value. -/
def ResponseFits (bo : ByteOrder) (rx : Bytes) : Prop :=
  ∃ h, Header.read bo rx = .ok h ∧
    match h.type with
    | .kRespRegister =>
        ∃ b, rx[sizeofHeader]? = some b ∧ (b = 0 → sizeofHeader + 1 + sizeofUserId ≤ rx.length)
    | .kRespUsers =>
        ∃ b, rx[sizeofHeader]? = some b ∧ (b = 0 → RecordsFit bo (rx.drop (sizeofHeader + 1)))
    | .kRespSend => sizeofHeader + 1 ≤ rx.length
    | .kRespRecv => RecordsFit bo (rx.drop (sizeofHeader + 1))
    | _ => True

variable {bo : ByteOrder} {c : MccClient} {h : Header}

/-- The loop over the records stays inside the payload exactly if they fit. -/
theorem readRecords_isOk {σ : Type} (f : σ → UserId → Bytes → σ) (payload : Bytes) (acc : σ) :
    (∃ out, (read32 bo payload >>= fun n => readRecords bo f n.toNat (payload.drop 4) acc)
      = .ok out) ↔ RecordsFit bo payload := by
  simp only [bind_eq_ok, readRecords_eq_ok, read32_eq_ok, RecordsFit]
  constructor
  · rintro ⟨out, n, hn, rs, hrs, -⟩
    exact ⟨n, rs, hn, hrs⟩
  · rintro ⟨n, rs, hn, hrs⟩
    exact ⟨_, n, hn, rs, hrs, rfl⟩

/-- Whether they fit is found by walking over them. -/
instance (payload : Bytes) : Decidable (RecordsFit bo payload) :=
  decidable_of_iff
    ((read32 bo payload >>= fun n =>
      readRecords bo (fun (_ : Unit) _ _ => ()) n.toNat (payload.drop 4) ()) = .ok ())
    ((readRecords_isOk _ payload ()).symm.trans
      ⟨fun ⟨_, h⟩ => h, fun h => ⟨(), h⟩⟩).symm

theorem validateRespHeader_of_read (hread : Header.read bo c.rxBuffer = .ok h)
    (type : PacketType) : c.validateRespHeader bo type = .ok (decide (h.type = type)) := by
  simp only [validateRespHeader, hread, ok_bind, pure_eq_ok]

/-- The byte behind the header. -/
theorem read8_eq_ok_iff {b : UInt8} :
    read8 (c.rxBuffer.drop sizeofHeader) = .ok b ↔ c.rxBuffer[sizeofHeader]? = some b := by
  rw [read8_eq_ok, List.head?_drop]

/-- A decoder that goes on only if the header has its type. -/
theorem gate_isOk {α : Type} (hread : Header.read bo c.rxBuffer = .ok h) (type : PacketType)
    (a : α) (body : Except Fault α) :
    (∃ out, (c.validateRespHeader bo type >>= fun b => if !b then .ok a else body) = .ok out) ↔
      (h.type = type → ∃ out, body = .ok out) := by
  rw [validateRespHeader_of_read hread, ok_bind]
  by_cases htype : h.type = type
  · simp [htype]
  · simp [htype]

theorem handleRespRegister_isOk_iff (hread : Header.read bo c.rxBuffer = .ok h) (id : UserId) :
    (∃ out, c.handleRespRegister bo id = .ok out) ↔
      (h.type = .kRespRegister → ∃ b, c.rxBuffer[sizeofHeader]? = some b ∧
        (b = 0 → sizeofHeader + 1 + sizeofUserId ≤ c.rxBuffer.length)) := by
  refine (gate_isOk hread .kRespRegister (false, id) _).trans (imp_congr_right fun _ => ?_)
  constructor
  · rintro ⟨out, hout⟩
    obtain ⟨b, hb, hout⟩ := bind_eq_ok.mp hout
    refine ⟨b, read8_eq_ok_iff.mp hb, fun hzero => ?_⟩
    -- Zero is the positive response, and only behind it is an id read.
    rw [if_neg (not_not.mpr hzero)] at hout
    obtain ⟨id', hid, -⟩ := bind_eq_ok.mp hout
    have hlen := (read32_eq_ok.mp hid).length_le
    simp only [ByteOrder.toBytes_length, List.drop_drop, List.length_drop] at hlen
    simp only [sizeofHeader, sizeofUserId] at hlen ⊢
    omega
  · rintro ⟨b, hb, hfits⟩
    by_cases hzero : b = 0
    · have hlen : 4 ≤ ((c.rxBuffer.drop sizeofHeader).drop 1).length := by
        have hfits := hfits hzero
        simp only [sizeofHeader, sizeofUserId, List.drop_drop, List.length_drop] at hfits ⊢
        omega
      exact ⟨_, bind_eq_ok.mpr ⟨b, read8_eq_ok_iff.mpr hb, by
        rw [if_neg (not_not.mpr hzero), read32_of_le hlen, ok_bind, pure_eq_ok]⟩⟩
    · exact ⟨_, bind_eq_ok.mpr ⟨b, read8_eq_ok_iff.mpr hb, if_pos hzero⟩⟩

theorem handleRespUsers_isOk_iff (hread : Header.read bo c.rxBuffer = .ok h)
    (nameToId : UnorderedMap Bytes UserId) :
    (∃ out, c.handleRespUsers bo nameToId = .ok out) ↔
      (h.type = .kRespUsers → ∃ b, c.rxBuffer[sizeofHeader]? = some b ∧
        (b = 0 → RecordsFit bo (c.rxBuffer.drop (sizeofHeader + 1)))) := by
  refine (gate_isOk hread .kRespUsers (false, nameToId) _).trans (imp_congr_right fun _ => ?_)
  rw [← List.drop_drop]
  constructor
  · rintro ⟨out, hout⟩
    obtain ⟨b, hb, hout⟩ := bind_eq_ok.mp hout
    refine ⟨b, read8_eq_ok_iff.mp hb, fun hzero => ?_⟩
    -- Zero is the positive response, and only behind it are records read.
    rw [if_neg (not_not.mpr hzero)] at hout
    obtain ⟨n, hn, hout⟩ := bind_eq_ok.mp hout
    obtain ⟨m, hm, -⟩ := bind_eq_ok.mp hout
    exact (readRecords_isOk _ _ _).mp ⟨m, bind_eq_ok.mpr ⟨n, hn, hm⟩⟩
  · rintro ⟨b, hb, hfits⟩
    by_cases hzero : b = 0
    · obtain ⟨m, hm⟩ := (readRecords_isOk
        (fun (m : UnorderedMap Bytes UserId) id username => m.insert username id) _ ∅).mpr
          (hfits hzero)
      obtain ⟨n, hn, hm⟩ := bind_eq_ok.mp hm
      exact ⟨_, bind_eq_ok.mpr ⟨b, read8_eq_ok_iff.mpr hb, by
        rw [if_neg (not_not.mpr hzero)]
        exact bind_eq_ok.mpr ⟨n, hn, bind_eq_ok.mpr ⟨m, hm, rfl⟩⟩⟩⟩
    · exact ⟨_, bind_eq_ok.mpr ⟨b, read8_eq_ok_iff.mpr hb, if_pos hzero⟩⟩

theorem handleRespSend_isOk_iff (hread : Header.read bo c.rxBuffer = .ok h) (stat : SendStatus) :
    (∃ out, c.handleRespSend bo stat = .ok out) ↔
      (h.type = .kRespSend → sizeofHeader + 1 ≤ c.rxBuffer.length) := by
  refine (gate_isOk hread .kRespSend (false, stat) _).trans (imp_congr_right fun _ => ?_)
  constructor
  · rintro ⟨out, hout⟩
    obtain ⟨b, hb, -⟩ := bind_eq_ok.mp hout
    exact (List.getElem?_eq_some_iff.mp (read8_eq_ok_iff.mp hb)).1
  · intro hlen
    exact ⟨_, bind_eq_ok.mpr
      ⟨_, read8_eq_ok_iff.mpr (List.getElem?_eq_getElem hlen), rfl⟩⟩

theorem handleRespRecv_isOk_iff (hread : Header.read bo c.rxBuffer = .ok h) (msgs : List Msg) :
    (∃ out, c.handleRespRecv bo msgs = .ok out) ↔
      (h.type = .kRespRecv → RecordsFit bo (c.rxBuffer.drop (sizeofHeader + 1))) := by
  refine (gate_isOk hread .kRespRecv (false, msgs) _).trans (imp_congr_right fun _ => ?_)
  rw [← List.drop_drop]
  constructor
  · rintro ⟨out, hout⟩
    obtain ⟨b, -, hout⟩ := bind_eq_ok.mp hout
    obtain ⟨n, hn, hout⟩ := bind_eq_ok.mp hout
    obtain ⟨m, hm, -⟩ := bind_eq_ok.mp hout
    exact (readRecords_isOk _ _ _).mp ⟨m, bind_eq_ok.mpr ⟨n, hn, hm⟩⟩
  · intro hfits
    -- The response value is there because the count behind it is.
    have hval : sizeofHeader < c.rxBuffer.length := by
      obtain ⟨n, -, hn, -⟩ := hfits
      have hlen := hn.length_le
      simp only [ByteOrder.toBytes_length, List.drop_drop, List.length_drop] at hlen
      omega
    obtain ⟨m, hm⟩ :=
      (readRecords_isOk (fun msgs id msg => msgs ++ [⟨id, msg⟩]) _ msgs).mpr hfits
    obtain ⟨n, hn, hm⟩ := bind_eq_ok.mp hm
    exact ⟨_, bind_eq_ok.mpr ⟨_, read8_eq_ok_iff.mpr (List.getElem?_eq_getElem hval),
      bind_eq_ok.mpr ⟨n, hn, bind_eq_ok.mpr ⟨m, hm, rfl⟩⟩⟩⟩

/-- A decoder needs the header to be there. -/
theorem readsInside_header (hsafe : c.ReadsInside bo) : ∃ h, Header.read bo c.rxBuffer = .ok h := by
  obtain ⟨out, hout⟩ := hsafe.send .kSuccess
  obtain ⟨b, hb, -⟩ := bind_eq_ok.mp hout
  obtain ⟨h, hread, -⟩ := bind_eq_ok.mp hb
  exact ⟨h, hread⟩

/-- **The decoders stay inside the receive buffer exactly when it holds a whole response** of
the type its header claims: nothing they read is checked against the buffer's size. -/
theorem readsInside_iff (bo : ByteOrder) (c : MccClient) :
    c.ReadsInside bo ↔ ResponseFits bo c.rxBuffer := by
  constructor
  · intro hsafe
    obtain ⟨h, hread⟩ := readsInside_header hsafe
    refine ⟨h, hread, ?_⟩
    cases htype : h.type with
    | kRespRegister => exact (handleRespRegister_isOk_iff hread 0).mp (hsafe.register 0) htype
    | kRespUsers => exact (handleRespUsers_isOk_iff hread ∅).mp (hsafe.users ∅) htype
    | kRespSend => exact (handleRespSend_isOk_iff hread .kSuccess).mp (hsafe.send _) htype
    | kRespRecv => exact (handleRespRecv_isOk_iff hread []).mp (hsafe.recv []) htype
    | _ => trivial
  · rintro ⟨h, hread, hfits⟩
    refine ⟨fun id => ?_, fun nameToId => ?_, fun stat => ?_, fun msgs => ?_⟩
    · refine (handleRespRegister_isOk_iff hread id).mpr fun htype => ?_
      simpa only [htype] using hfits
    · refine (handleRespUsers_isOk_iff hread nameToId).mpr fun htype => ?_
      simpa only [htype] using hfits
    · refine (handleRespSend_isOk_iff hread stat).mpr fun htype => ?_
      simpa only [htype] using hfits
    · refine (handleRespRecv_isOk_iff hread msgs).mpr fun htype => ?_
      simpa only [htype] using hfits

/-- A Users response of ten bytes that announces one user. -/
theorem not_readsInside_truncated_users :
    ¬(MccClient.mk [] [0xF1, 5, 0, 0, 0, 0, 1, 0, 0, 0]).ReadsInside .little := by
  intro hsafe
  obtain ⟨out, hout⟩ := hsafe.users ∅
  have herr : (MccClient.mk [] [0xF1, 5, 0, 0, 0, 0, 1, 0, 0, 0]).handleRespUsers .little ∅
      = .error .outOfBounds := by rfl
  rw [herr] at hout
  cases hout

end MccClient

end ChatApp
