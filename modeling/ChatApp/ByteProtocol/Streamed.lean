import ChatApp.Client.MccClient
import ChatApp.Server.MccServer

set_option autoImplicit false

/-! # The streamed registration (`client/client_parser.cpp`)

`ClientParser::encodeRequestRegister` writes two protobuf messages back to back, and
`parseRequestRegisterProto` reads two messages from the stream. Nothing says where the first
ends. A protobuf parser takes the stream to its end, and the username, field 1 of the second
message, is for the first one a field of the wrong wire type: so the first read uses up both
messages, the second one finds an empty stream, and the user is registered under the empty
name.
-/

namespace ChatApp

open Lib Lib.Wire Lib.Wire.Message

namespace ClientParser

def encodeRequestRegister (username : Bytes) : Bytes :=
  let hdr : Mcc.Header := { packetType := some .requestRegister }
  let req : Mcc.RequestRegister := { username := some username }
  serialize hdr ++ serialize req

/-- The two messages are as good as one with the fields of both. -/
theorem encodeRequestRegister_eq (username : Bytes) :
    encodeRequestRegister username
      = encode [⟨1, .varint 0⟩, ⟨1, .lenDelim username⟩] := by
  unfold encodeRequestRegister serialize
  rw [← encode_append]
  rfl

/-- The tag and the number of the packet type, the tag of the username, its length, and the
username. -/
theorem encodeRequestRegister_bytes (username : Bytes) :
    encodeRequestRegister username
      = [8, 0, 10] ++ (encodeVarint username.length ++ username) := by
  rw [encodeRequestRegister_eq, encode_cons, encode_cons, encode_nil, List.append_nil]
  rfl

end ClientParser

namespace MccServer

variable (P : Platform)

/-! ## What the two reads find -/

/-- The first read succeeds and takes everything. -/
theorem parseHeader_encodeRequestRegister {username : Bytes} (h : username.length < 2 ^ 35) :
    (parseFromIstream Mcc.Header P (ClientParser.encodeRequestRegister username)).2 = [] := by
  have hwf : ∀ f ∈ [(⟨1, .varint 0⟩ : Field), ⟨1, .lenDelim username⟩], f.WF := by
    intro f hf
    rcases List.mem_cons.mp hf with rfl | hf
    · exact ⟨Nat.one_pos, by norm_num, Nat.two_pow_pos 64⟩
    · rw [List.mem_singleton] at hf
      subst hf
      exact ⟨Nat.one_pos, by norm_num, h⟩
  have hread : (parseFromArray (ClientParser.encodeRequestRegister username) : Mcc.Header × Bool)
      = ({ packetType := some .requestRegister }, true) := by
    rw [ClientParser.encodeRequestRegister_eq]
    exact mergeFrom_encode hwf rfl
  unfold parseFromIstream
  rw [hread]
  rfl

/-- The username of a RequestRegister is one that a field carried. -/
theorem username_of_mergeFields {m : Mcc.RequestRegister} {fs : List Field} {username : Bytes}
    (h : (mergeFields merge m fs).1.username = some username) :
    m.username = some username ∨ ∃ f ∈ fs, f.payload = .lenDelim username := by
  have hone : ∀ (m : Mcc.RequestRegister) (f : Field), (merge m f).1.username = some username →
      m.username = some username ∨ f.payload = .lenDelim username := by
    rintro m ⟨num, payload⟩ hm
    by_cases hnum : num = 1
    · subst hnum
      cases payload with
      | lenDelim bs =>
          have hbs : some bs = some username := hm
          exact .inr (congrArg Payload.lenDelim (Option.some.inj hbs))
      | varint n => exact .inl hm
      | fixed64 bs => exact .inl hm
      | group => exact .inl hm
      | fixed32 bs => exact .inl hm
    · left
      simpa [merge, hnum] using hm
  -- The induction is on the fields; the message so far is what the earlier ones left.
  induction fs generalizing m with
  | nil => exact .inl h
  | cons f fs ih =>
      simp only [mergeFields] at h
      split_ifs at h with hok
      · rcases ih h with hm | ⟨g, hg, hpayload⟩
        · rcases hone m f hm with hm | hpayload
          · exact .inl hm
          · exact .inr ⟨f, List.mem_cons_self, hpayload⟩
        · exact .inr ⟨g, List.mem_cons_of_mem f hg, hpayload⟩
      · rcases hone m f h with hm | hpayload
        · exact .inl hm
        · exact .inr ⟨f, List.mem_cons_self, hpayload⟩

/-- No username that is read is longer than a length can say. -/
theorem protoUsername_length_lt (rxBuffer : Bytes) :
    (protoUsername P rxBuffer).length < 2 ^ 35 := by
  unfold protoUsername parseFromIstream
  cases hname : (parseFromArray (parseFromIstream Mcc.Header P rxBuffer).2 :
      Mcc.RequestRegister × Bool).1.username with
  | none =>
      show (((parseFromArray (parseFromIstream Mcc.Header P rxBuffer).2 :
        Mcc.RequestRegister × Bool).1.username).getD []).length < 2 ^ 35
      rw [hname]
      decide
  | some username =>
      show (((parseFromArray (parseFromIstream Mcc.Header P rxBuffer).2 :
        Mcc.RequestRegister × Bool).1.username).getD []).length < 2 ^ 35
      rw [hname]
      rcases username_of_mergeFields hname with hnone | ⟨f, hf, hpayload⟩
      · cases hnone
      · exact lenDelim_lt_of_mem_parse hf hpayload

/-- **Only the empty name is read back.** -/
theorem protoUsername_encodeRequestRegister (username : Bytes) :
    protoUsername P (ClientParser.encodeRequestRegister username) = username ↔ username = [] := by
  by_cases hlt : username.length < 2 ^ 35
  · have hempty : protoUsername P (ClientParser.encodeRequestRegister username) = [] := by
      unfold protoUsername
      rw [parseHeader_encodeRequestRegister P hlt]
      rfl
    rw [hempty]
    exact eq_comm
  · -- A name too long for its length field is not read at all.
    constructor
    · intro heq
      have hread := protoUsername_length_lt P (ClientParser.encodeRequestRegister username)
      rw [heq] at hread
      exact absurd hread hlt
    · rintro rfl
      exact absurd (by decide) hlt

/-! ## The registration -/

/-- `parse` comes back, and has added one user under a new id, with this username. -/
def RegistersOne (s : MccServer) (username : Bytes) (result : Except Fault (Nat × MccServer)) :
    Prop :=
  ∃ n s' id, result = .ok (n, s') ∧ s.db.find id = none ∧ s'.db.nameOf id = some username ∧
    ∀ i, i ≠ id → s'.db.find i = s.db.find i

/-- A registration adds one user with the name if it has the name and the next id is free. -/
theorem registersOne_iff {s : MccServer} {username name : Bytes} {n : Nat} {txBuffer : Bytes} :
    RegistersOne s username (.ok (n, ⟨(s.db.registerUser name).2, txBuffer⟩)) ↔
      name = username ∧ s.db.find s.db.nextId = none := by
  constructor
  · rintro ⟨k, s', id, hok, hnew, hname, hothers⟩
    cases hok
    have hid : s.db.nextId = id := by
      by_contra hne
      rw [Database.nameOf_registerUser, if_neg hne, Database.nameOf, hnew] at hname
      cases hname
    subst hid
    rw [Database.nameOf_registerUser, if_pos rfl] at hname
    exact ⟨Option.some.inj hname, hnew⟩
  · rintro ⟨rfl, hnew⟩
    refine ⟨n, _, s.db.nextId, rfl, hnew, ?_, ?_⟩
    · rw [Database.nameOf_registerUser, if_pos rfl]
    · intro i hne
      rw [Database.find_registerUser, if_neg (Ne.symm hne)]

/-- The packet reaches the protobuf parser if a header's worth of bytes can be read. -/
theorem parseIn_encodeRequestRegister (s : MccServer) (username rest : Bytes) :
    s.parseIn P (ClientParser.encodeRequestRegister username ++ rest)
        (ClientParser.encodeRequestRegister username).length
      = if username = [] ∧ rest = [] then .error .outOfBounds
        else s.respond (registerReply P s.db
          (protoUsername P (ClientParser.encodeRequestRegister username))) := by
  have hlen : (ClientParser.encodeRequestRegister username).length
      = 3 + (encodeVarint username.length).length + username.length := by
    rw [ClientParser.encodeRequestRegister_bytes, List.length_append, List.length_append]
    have hthree : ([8, 0, 10] : Bytes).length = 3 := rfl
    omega
  by_cases hshort : username = [] ∧ rest = []
  · rcases hshort with ⟨rfl, rfl⟩
    rw [if_pos ⟨rfl, rfl⟩, List.append_nil]
    rfl
  · rw [if_neg hshort]
    have hvarint : 0 < (encodeVarint username.length).length := by
      rw [encodeVarint, putVarint]
      split_ifs <;> simp
    have hfive : sizeofHeader ≤ (ClientParser.encodeRequestRegister username ++ rest).length := by
      rw [List.length_append, hlen]
      have hmore : 0 < username.length ∨ 0 < rest.length := by
        by_contra hnone
        apply hshort
        constructor
        · apply List.length_eq_zero_iff.mp
          omega
        · apply List.length_eq_zero_iff.mp
          omega
      show 5 ≤ _
      omega
    have hread := @Header.read_of_le P.byteOrder _ hfive
    -- The first byte is the tag of the packet type, and no type of the byte protocol.
    have htype : PacketType.ofByte
        ((ClientParser.encodeRequestRegister username ++ rest).headD 0) = .unknown 8 := by
      rw [ClientParser.encodeRequestRegister_bytes]
      rfl
    unfold parseIn
    rw [hread, ok_bind]
    simp only [htype]
    rw [readBytes_append rfl, ok_bind, parseRequestRegisterProto_eq]

/-- **A streamed registration registers the user under the username exactly if that is
empty**, provided that five bytes can be read through the pointer, the response fits, and the
next id is free. -/
theorem registersOne_streamed_iff (s : MccServer) (username rest : Bytes) :
    RegistersOne s username (s.parseIn P (ClientParser.encodeRequestRegister username ++ rest)
        (ClientParser.encodeRequestRegister username).length) ↔
      username = [] ∧ rest ≠ [] ∧ 10 ≤ s.txBuffer.length ∧ s.db.find s.db.nextId = none := by
  rw [parseIn_encodeRequestRegister]
  by_cases hshort : username = [] ∧ rest = []
  · rw [if_pos hshort]
    constructor
    · rintro ⟨n, s', id, hok, -⟩
      cases hok
    · rintro ⟨-, hne, -⟩
      exact absurd hshort.2 hne
  · rw [if_neg hshort]
    -- The response to a registration has ten bytes, whatever username was found.
    have hlen : (registerReply P s.db
        (protoUsername P (ClientParser.encodeRequestRegister username))).bytes.length = 10 := by
      simp [registerReply, sizeofHeader]
    by_cases hfits : 10 ≤ s.txBuffer.length
    · rw [respond_of_le (hlen ▸ hfits)]
      show RegistersOne s username (.ok (_, ⟨(s.db.registerUser _).2, _⟩)) ↔ _
      rw [registersOne_iff, protoUsername_encodeRequestRegister]
      constructor
      · rintro ⟨hnil, hfree⟩
        refine ⟨hnil, ?_, hfits, hfree⟩
        intro hrest
        exact hshort ⟨hnil, hrest⟩
      · rintro ⟨hnil, -, -, hfree⟩
        exact ⟨hnil, hfree⟩
    · rw [respond_of_lt (hlen ▸ Nat.not_le.mp hfits)]
      constructor
      · rintro ⟨n, s', id, hok, -⟩
        cases hok
      · rintro ⟨-, -, hle, -⟩
        exact absurd hle hfits

/-- The username of the client's own test, to a server as it starts. -/
theorem not_registersOne_tilak :
    Database.Reachable .empty ∧ ¬RegistersOne ⟨.empty, List.replicate 100 0⟩ [84, 105, 108, 97, 107]
      ((MccServer.mk .empty (List.replicate 100 0)).parseIn .littleEndian
        (ClientParser.encodeRequestRegister [84, 105, 108, 97, 107])
        (ClientParser.encodeRequestRegister [84, 105, 108, 97, 107]).length) := by
  refine ⟨.empty, ?_⟩
  have heval : ((MccServer.mk .empty (List.replicate 100 0)).parseIn .littleEndian
      (ClientParser.encodeRequestRegister [84, 105, 108, 97, 107])
      (ClientParser.encodeRequestRegister [84, 105, 108, 97, 107]).length).map
        (fun out => decide (out.2.db = (Database.empty.registerUser []).2)) = .ok true := by
    decide +kernel
  rcases map_eq_ok.mp heval with ⟨⟨n, s'⟩, hparse, hdb⟩
  rintro ⟨k, t, id, hok, -, hname, -⟩
  rw [hparse] at hok
  cases hok
  rw [of_decide_eq_true hdb, Database.nameOf_registerUser, Database.nameOf_empty] at hname
  split_ifs at hname
  cases hname

end MccServer

end ChatApp
