import ChatApp.ByteProtocol.Memory

set_option autoImplicit false

/-! # What the decoders make of a response value

`handleRespRegister` and `handleRespUsers` return false on a negative response and leave their
output parameter alone. `handleRespRecv` prints that the value is negative, reads on, and
returns true: a negative response is six bytes long, so what it appends are the leftovers of
an earlier packet.
-/

namespace ChatApp

open Lib

namespace MccClient

/-- The response in `rx_buffer_` has the type, and its response value is 0. -/
def Affirmed (bo : ByteOrder) (c : MccClient) (type : PacketType) : Prop :=
  ∃ h, Header.read bo c.rxBuffer = .ok h ∧ h.type = type ∧ c.rxBuffer[sizeofHeader]? = some 0

/-- A decoder returns, with true exactly on a positive response, and with its output parameter
as it was if it returns false. -/
def Settles {α : Type} (result : Except Fault (Bool × α)) (positive : Prop) (old : α) : Prop :=
  ∃ ok new, result = .ok (ok, new) ∧ (ok = true ↔ positive) ∧ (ok = false → new = old)

/-- The three decoders with a response value do as they should, whatever their output
parameter holds. -/
structure Decides (bo : ByteOrder) (c : MccClient) : Prop where
  register : ∀ id, Settles (c.handleRespRegister bo id) (c.Affirmed bo .kRespRegister) id
  users : ∀ nameToId,
    Settles (c.handleRespUsers bo nameToId) (c.Affirmed bo .kRespUsers) nameToId
  recv : ∀ msgs, Settles (c.handleRespRecv bo msgs) (c.Affirmed bo .kRespRecv) msgs

/-- The buffer holds a header, and behind it what a response of its type consists of; a Recv
response is a positive one. -/
def PositiveRecvFits (bo : ByteOrder) (rx : Bytes) : Prop :=
  ∃ h, Header.read bo rx = .ok h ∧
    match h.type with
    | .kRespRegister =>
        ∃ b, rx[sizeofHeader]? = some b ∧ (b = 0 → sizeofHeader + 1 + sizeofUserId ≤ rx.length)
    | .kRespUsers =>
        ∃ b, rx[sizeofHeader]? = some b ∧ (b = 0 → RecordsFit bo (rx.drop (sizeofHeader + 1)))
    | .kRespRecv => rx[sizeofHeader]? = some 0 ∧ RecordsFit bo (rx.drop (sizeofHeader + 1))
    | _ => True

variable {bo : ByteOrder} {c : MccClient} {h : Header}

theorem affirmed_iff (hread : Header.read bo c.rxBuffer = .ok h) (type : PacketType) :
    c.Affirmed bo type ↔ h.type = type ∧ c.rxBuffer[sizeofHeader]? = some 0 := by
  constructor
  · rintro ⟨h', hread', htype, hvalue⟩
    obtain rfl := Except.ok.inj (hread.symm.trans hread')
    exact ⟨htype, hvalue⟩
  · rintro ⟨htype, hvalue⟩
    exact ⟨h, hread, htype, hvalue⟩

/-- What a decoder comes back with: what it was given, if the type is another, and else what
its body comes back with. -/
theorem gate_eq_ok {α : Type} (hread : Header.read bo c.rxBuffer = .ok h) {type : PacketType}
    {a out : α} {body : Except Fault α}
    (hout : (c.validateRespHeader bo type >>= fun b => if !b then .ok a else body) = .ok out) :
    (h.type ≠ type ∧ out = a) ∨ (h.type = type ∧ body = .ok out) := by
  rw [validateRespHeader_of_read hread, ok_bind] at hout
  by_cases htype : h.type = type
  · refine .inr ⟨htype, ?_⟩
    simpa [htype] using hout
  · refine .inl ⟨htype, ?_⟩
    simpa [htype, eq_comm] using hout

/-! ## Each decoder, where it comes back -/

/-- A decoder that goes on behind the response value only if it is 0, and then returns true,
has done right where it comes back. -/
theorem right_of_value {α : Type} (hread : Header.read bo c.rxBuffer = .ok h)
    {type : PacketType} {old : α} {out : Bool × α} {rest : Except Fault (Bool × α)}
    (hrest : ∀ out, rest = .ok out → out.1 = true)
    (hout : (c.validateRespHeader bo type >>= fun b => if !b then .ok (false, old) else
      read8 (c.rxBuffer.drop sizeofHeader) >>= fun value =>
        if value ≠ 0 then .ok (false, old) else rest) = .ok out) :
    (out.1 = true ↔ c.Affirmed bo type) ∧ (out.1 = false → out.2 = old) := by
  rw [affirmed_iff hread]
  rcases gate_eq_ok hread hout with ⟨htype, rfl⟩ | ⟨htype, hbody⟩
  · exact ⟨iff_of_false Bool.false_ne_true (fun h => htype h.1), fun _ => rfl⟩
  · obtain ⟨b, hb, hbody⟩ := bind_eq_ok.mp hbody
    rw [read8_eq_ok_iff] at hb
    -- The two branches of the source: behind a value of 0 it goes on, otherwise it is done.
    by_cases hzero : b = 0
    · rw [if_neg (not_not.mpr hzero)] at hbody
      have htrue := hrest out hbody
      exact ⟨iff_of_true htrue ⟨htype, hzero ▸ hb⟩, fun hfalse => by simp [htrue] at hfalse⟩
    · rw [if_pos hzero] at hbody
      obtain rfl := Except.ok.inj hbody
      refine ⟨iff_of_false Bool.false_ne_true ?_, fun _ => rfl⟩
      rintro ⟨-, hvalue⟩
      exact hzero (Option.some.inj (hb.symm.trans hvalue))

theorem handleRespRegister_right (hread : Header.read bo c.rxBuffer = .ok h) {id : UserId}
    {out : Bool × UserId} (hout : c.handleRespRegister bo id = .ok out) :
    (out.1 = true ↔ c.Affirmed bo .kRespRegister) ∧ (out.1 = false → out.2 = id) := by
  refine right_of_value hread ?_ hout
  intro out hrest
  obtain ⟨id', -, hrest⟩ := bind_eq_ok.mp hrest
  rw [← Except.ok.inj hrest]

theorem handleRespUsers_right (hread : Header.read bo c.rxBuffer = .ok h)
    {nameToId : UnorderedMap Bytes UserId} {out : Bool × UnorderedMap Bytes UserId}
    (hout : c.handleRespUsers bo nameToId = .ok out) :
    (out.1 = true ↔ c.Affirmed bo .kRespUsers) ∧ (out.1 = false → out.2 = nameToId) := by
  refine right_of_value hread ?_ hout
  intro out hrest
  obtain ⟨n, -, hrest⟩ := bind_eq_ok.mp hrest
  obtain ⟨m, -, hrest⟩ := bind_eq_ok.mp hrest
  rw [← Except.ok.inj hrest]

/-- The Recv decoder returns true whatever the response value. -/
theorem handleRespRecv_result (hread : Header.read bo c.rxBuffer = .ok h) {msgs : List Msg}
    {out : Bool × List Msg} (hout : c.handleRespRecv bo msgs = .ok out) :
    (out.1 = true ↔ h.type = .kRespRecv) ∧ (out.1 = false → out.2 = msgs) := by
  rcases gate_eq_ok hread hout with ⟨htype, rfl⟩ | ⟨htype, hbody⟩
  · exact ⟨iff_of_false Bool.false_ne_true htype, fun _ => rfl⟩
  · obtain ⟨b, -, hbody⟩ := bind_eq_ok.mp hbody
    obtain ⟨n, -, hbody⟩ := bind_eq_ok.mp hbody
    obtain ⟨m, -, hbody⟩ := bind_eq_ok.mp hbody
    obtain rfl := Except.ok.inj hbody
    exact ⟨iff_of_true rfl htype, nofun⟩

/-! ## Where they come back and do right -/

/-- A decoder that does right where it comes back: whether it comes back is the question. -/
theorem settles_iff_isOk {α : Type} {result : Except Fault (Bool × α)} {positive : Prop} {old : α}
    (hright : ∀ out, result = .ok out → (out.1 = true ↔ positive) ∧ (out.1 = false → out.2 = old)) :
    Settles result positive old ↔ ∃ out, result = .ok out := by
  constructor
  · rintro ⟨ok, new, hok, -⟩
    exact ⟨_, hok⟩
  · rintro ⟨out, hout⟩
    exact ⟨out.1, out.2, hout, hright out hout⟩

/-- The Recv decoder does right if the response is no Recv response, or a positive one. -/
theorem settles_recv_iff (hread : Header.read bo c.rxBuffer = .ok h) (msgs : List Msg) :
    Settles (c.handleRespRecv bo msgs) (c.Affirmed bo .kRespRecv) msgs ↔
      (∃ out, c.handleRespRecv bo msgs = .ok out) ∧
        (h.type = .kRespRecv → c.rxBuffer[sizeofHeader]? = some 0) := by
  constructor
  · rintro ⟨ok, new, hok, htrue, -⟩
    refine ⟨⟨_, hok⟩, fun htype => ?_⟩
    have hreturned := (handleRespRecv_result hread hok).1.mpr htype
    exact ((affirmed_iff hread .kRespRecv).mp (htrue.mp hreturned)).2
  · rintro ⟨⟨out, hout⟩, hvalue⟩
    obtain ⟨htrue, hfalse⟩ := handleRespRecv_result hread hout
    refine ⟨out.1, out.2, hout, htrue.trans ?_, hfalse⟩
    rw [affirmed_iff hread]
    exact ⟨fun htype => ⟨htype, hvalue htype⟩, And.left⟩

/-- **The decoders return true exactly on positive responses, and change nothing otherwise,
exactly when the buffer holds a whole response**, and if it is a Recv response a positive
one. -/
theorem decides_iff (bo : ByteOrder) (c : MccClient) :
    c.Decides bo ↔ PositiveRecvFits bo c.rxBuffer := by
  constructor
  · intro hdecides
    obtain ⟨ok, new, hok, -⟩ := hdecides.register 0
    obtain ⟨b, hb, -⟩ := bind_eq_ok.mp hok
    obtain ⟨h, hread, -⟩ := bind_eq_ok.mp hb
    -- All three read the same header, and the decoder of its type has to come back.
    refine ⟨h, hread, ?_⟩
    cases htype : h.type with
    | kRespRegister =>
        have hout := (settles_iff_isOk fun _ => handleRespRegister_right hread).mp
          (hdecides.register 0)
        exact (handleRespRegister_isOk_iff hread 0).mp hout htype
    | kRespUsers =>
        have hout := (settles_iff_isOk fun _ => handleRespUsers_right hread).mp
          (hdecides.users ∅)
        exact (handleRespUsers_isOk_iff hread ∅).mp hout htype
    | kRespRecv =>
        obtain ⟨hout, hvalue⟩ := (settles_recv_iff hread []).mp (hdecides.recv [])
        exact ⟨hvalue htype, (handleRespRecv_isOk_iff hread []).mp hout htype⟩
    | _ => trivial
  · rintro ⟨h, hread, hfits⟩
    refine ⟨fun id => ?_, fun nameToId => ?_, fun msgs => ?_⟩
    · refine (settles_iff_isOk fun _ => handleRespRegister_right hread).mpr ?_
      refine (handleRespRegister_isOk_iff hread id).mpr fun htype => ?_
      simpa only [htype] using hfits
    · refine (settles_iff_isOk fun _ => handleRespUsers_right hread).mpr ?_
      refine (handleRespUsers_isOk_iff hread nameToId).mpr fun htype => ?_
      simpa only [htype] using hfits
    · have hrecv (htype : h.type = .kRespRecv) : c.rxBuffer[sizeofHeader]? = some 0 ∧
          RecordsFit bo (c.rxBuffer.drop (sizeofHeader + 1)) := by
        simpa only [htype] using hfits
      refine (settles_recv_iff hread msgs).mpr ⟨?_, fun htype => (hrecv htype).1⟩
      exact (handleRespRecv_isOk_iff hread msgs).mpr fun htype => (hrecv htype).2

/-- The negative response to a Recv request in front of what an earlier response has left: a
count of one, and a message from user 7. -/
theorem not_decides_negative_recv :
    let c : MccClient :=
      ⟨[], (MccServer.negativeReply .littleEndian .empty .kRespRecv).bytes
        ++ [1, 0, 0, 0, 7, 0, 0, 0, 1, 0, 0, 0, 65]⟩
    ¬c.Decides .little ∧ c.handleRespRecv .little [] = .ok (true, [⟨7, [65]⟩]) := by
  intro c
  have hout : c.handleRespRecv .little [] = .ok (true, [⟨7, [65]⟩]) := by
    rfl
  refine ⟨fun hdecides => ?_, hout⟩
  obtain ⟨ok, new, hok, htrue, -⟩ := hdecides.recv []
  rw [hout, Except.ok.injEq, Prod.mk.injEq] at hok
  obtain ⟨h, -, -, hvalue⟩ := htrue.mp hok.1.symm
  exact absurd hvalue (by decide)

end MccClient

end ChatApp
