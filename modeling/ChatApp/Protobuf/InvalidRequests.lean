import ChatApp.Protobuf.Segmentation
import ChatApp.Server.Usernames

set_option autoImplicit false

/-! # Requests with an invalid header

`handleRequest` prints that a header is invalid and goes on, and looks at no result of the
parse. An absent type reads as zero, which is `REQUEST_REGISTER`, so a packet without a header
registers the user it names; and of bytes that fail to parse the fields in front of the
failure are acted upon (`ineffective_iff`).
-/

namespace ChatApp

open Lib Lib.Wire Lib.Wire.Message

/-! ## Which requests are invalid -/

/-- The header names a request, and the packet has the submessage of that request with all
its fields. -/
def Mcc.Packet.IsRequest (p : Mcc.Packet) : Prop :=
  match p.hdr.bind (·.packetType) with
  | some .requestRegister => ∃ x, p.reqReg = some x ∧ x.username.isSome = true
  | some .requestUsers => ∃ x, p.reqUsers = some x ∧ x.requestorId.isSome = true
  | some .requestSend =>
      ∃ x, p.reqSend = some x ∧ x.sourceId.isSome = true ∧ x.targetId.isSome = true ∧
        x.message.isSome = true
  | some .requestRecv => ∃ x, p.reqRecv = some x ∧ x.requestorId.isSome = true
  | _ => False

/-- A response that says that the request was carried out. -/
def Mcc.Packet.Affirms (p : Mcc.Packet) : Prop :=
  p.respReg.bind (·.respValue) = some 0 ∨ p.respUsers.bind (·.respValue) = some 0 ∨
    p.respSend.bind (·.respValue) = some 0 ∨ p.respRecv.bind (·.respValue) = some 0

instance (p : Mcc.Packet) : Decidable p.Affirms := inferInstanceAs (Decidable (_ ∨ _))

namespace ServerApp

/-- The packet decoded from a receive buffer in which the bytes have arrived. -/
def decoded (bs : Bytes) : Mcc.Packet :=
  (parseFromArray (bs ++ List.replicate (bufferSize - bs.length) 0)).1

/-- The bytes do not decode, or decode to a packet that is no request: it has no header or no
type, or not the submessage that its type announces. -/
def Invalid (bs : Bytes) : Prop :=
  (parseFromArray bs : Mcc.Packet × Bool).2 = false ∨ ¬(decoded bs).IsRequest

/-- The request is without effect: the database is as before, and what is sent is no positive
response. -/
def Ineffective (iter : Traversal UserId UserMetadata) (db : Database) (recvs : List Recv) :
    Prop :=
  ∀ h, handleRequest iter db recvs = some h →
    h.db = db ∧ ∀ resp, h.sent = .ok resp → ¬(parseFromArray resp : Mcc.Packet × Bool).1.Affirms

variable {iter : Traversal UserId UserMetadata} {db : Database}

/-! ## What is built -/

/-- A packet is answered if it registers a name or is a Users request, and not otherwise. -/
theorem answer_eq (iter : Traversal UserId UserMetadata) (db : Database) (packet : Mcc.Packet) :
    answer iter db packet
      = ((Registrar.packetUsername packet).map fun username =>
          (registerResponse db.nextId, (db.registerUser username).2)).or
        ((usersRequestor packet).map fun id => (usersResponse iter db id, db)) := by
  unfold answer Registrar.packetUsername usersRequestor
  cases ((packet.hdr.getD {}).packetType).getD .requestRegister <;>
    simp [answerRegister, answerUsers, Database.registerUser]

/-- The list of a user that exists is read as a positive response, also if a name in it is not
UTF-8: the response value stands in front of the names. -/
theorem affirms_usersResponse {id : UserId} (hex : db.userExists id = true)
    (hsize : byteSizeLong (usersResponse iter db id) < 2 ^ 35) :
    (parseFromArray (serialize (usersResponse iter db id)) : Mcc.Packet × Bool).1.Affirms := by
  obtain ⟨us, hresp⟩ : ∃ us, usersResponse iter db id
      = { hdr := some { packetType := some .respUsers },
          respUsers := some { respValue := some 0, onlineUsers := us } } :=
    ⟨_, by simp only [usersResponse, hex]; rfl⟩
  rw [hresp] at hsize ⊢
  by_cases hvalid : ∀ u ∈ us, Mcc.Utf8Opt u.username
  · have hwf : Mcc.Packet.WellFormed
        { hdr := some { packetType := some .respUsers },
          respUsers := some { respValue := some 0, onlineUsers := us } } := by
      refine ⟨Mcc.Header.canonical_of_type rfl, by simp, by simp, ?_, by simp⟩
      rintro x ⟨⟩
      exact hvalid
    rw [(Mcc.Packet.sound hwf hsize).parse_serialize]
    exact .inr (.inl rfl)
  · obtain ⟨init, x, rest, hlist, hinit, hx⟩ := exists_first hvalid
    have hmem := (Mcc.Packet.mem_fields
      { hdr := some { packetType := some .respUsers },
        respUsers := some { respValue := some 0, onlineUsers := us } }).2.2.2.2.2.2.1 _ rfl
    have hread := Mcc.RespUsers.merge_invalid (m := { respValue := some 0, onlineUsers := us })
      hlist hinit hx (lt_of_le_of_lt (toField_size_le hmem) hsize)
    have hcanonical : ∀ t, ({ packetType := some .respUsers } : Mcc.Header).packetType = some t →
        t.Canonical := by
      rintro t ⟨⟩
      rfl
    have hparse := Mcc.Packet.parse_invalid hcanonical hread hsize []
    rw [List.append_nil] at hparse
    rw [hparse]
    exact .inr (.inl rfl)

/-- The response to a user nobody has registered is read as the refusal it is. -/
theorem not_affirms_usersResponse {id : UserId} (hex : db.userExists id = false) :
    ¬(parseFromArray (serialize (usersResponse iter db id)) : Mcc.Packet × Bool).1.Affirms := by
  have hresp : usersResponse iter db id
      = { hdr := some { packetType := some .respUsers }, respUsers := some { respValue := some 1 } }
      := by
    simp only [usersResponse, hex]
    rfl
  rw [hresp]
  decide +kernel

/-! ## What is sent -/

/-- A response larger than the transmit buffer is not written, and as many bytes as it has are
read from the buffer and from behind it. -/
theorem sent_of_large {packet resp : Mcc.Packet} {db' : Database}
    (h : answer iter db packet = some (resp, db')) (hlarge : bufferSize < byteSizeLong resp) :
    (handlePacket iter db packet).sent = .error .outOfBounds := by
  have hunwritten : (serializeToArray resp (List.replicate bufferSize 0) bufferSize).1
      = List.replicate bufferSize 0 := congrArg Prod.fst (if_neg (Nat.not_le.mpr hlarge))
  rw [handlePacket_of_some iter db h, Handled.sent, hunwritten]
  apply readBytes_of_lt
  rwa [List.length_replicate]

/-- A Users request is answered positively if its user exists and the list fits. -/
theorem users_not_affirmed_iff {packet : Mcc.Packet} {id : UserId}
    (hid : usersRequestor packet = some id) :
    (∀ resp, (handlePacket iter db packet).sent = .ok resp →
        ¬(parseFromArray resp : Mcc.Packet × Bool).1.Affirms) ↔
      (db.userExists id = true → 1015 < listSize iter db id) := by
  have hans := answer_of_usersRequestor iter db hid
  have hfits : byteSizeLong (usersResponse iter db id) ≤ bufferSize ↔
      listSize iter db id ≤ 1015 := by
    have h := answer_fits_iff hans (k := 1015) (by norm_num) (by norm_num)
    rw [hid] at h
    simp only [Option.mem_some_iff, forall_eq'] at h
    exact h
  rcases Nat.lt_or_ge bufferSize (byteSizeLong (usersResponse iter db id)) with hlarge | hle
  · have hlist : 1015 < listSize iter db id := Nat.not_le.mp (mt hfits.mpr (Nat.not_le.mpr hlarge))
    rw [sent_of_large hans hlarge]
    exact iff_of_true nofun (fun _ => hlist)
  · have hlist : listSize iter db id ≤ 1015 := hfits.mp hle
    rw [sent_of_some iter db hans hle]
    constructor
    · intro hnot hex
      exact absurd (affirms_usersResponse hex (lt_of_le_of_lt hle (by decide))) (hnot _ rfl)
    · rintro hex resp ⟨⟩
      apply not_affirms_usersResponse
      rw [← Bool.not_eq_true]
      intro hex'
      have hlong := hex hex'
      omega

/-! ## What a connection comes to -/

theorem handleRequest_of_bytes {recvs : List Recv} {bs : Bytes}
    (h : arrived bufferSize recvs = some bs) :
    handleRequest iter db recvs = some (handlePacket iter db (decoded bs)) := by
  rw [handleRequest_eq, received_eq, h]
  rfl

/-- **A connection is without effect exactly if the packet registers no name and is no Users
request of a user whose list fits the transmit buffer**, valid or not. -/
theorem ineffective_iff {recvs : List Recv} {bs : Bytes}
    (harrived : arrived bufferSize recvs = some bs) :
    Ineffective iter db recvs ↔ Registrar.packetUsername (decoded bs) = none ∧
      ∀ id ∈ usersRequestor (decoded bs), db.userExists id = true →
        1015 < listSize iter db id := by
  have hans := answer_eq iter db (decoded bs)
  constructor
  · intro hnone
    obtain ⟨hdb, hsent⟩ := hnone _ (handleRequest_of_bytes harrived)
    constructor
    · -- A name that is registered moves the counter on.
      cases hname : Registrar.packetUsername (decoded bs) with
      | none => rfl
      | some username =>
          rw [hname, Option.map_some, Option.some_or] at hans
          rw [handlePacket_of_some iter db hans] at hdb
          exact absurd hdb (Database.registerUser_ne db username)
    · intro id hid
      exact (users_not_affirmed_iff hid).mp hsent
  · rintro ⟨hname, husers⟩ h hh
    obtain rfl := Option.some.inj ((handleRequest_of_bytes harrived).symm.trans hh)
    rw [hname, Option.map_none, Option.none_or] at hans
    cases hreq : usersRequestor (decoded bs) with
    | none =>
        rw [hreq, Option.map_none] at hans
        rw [handlePacket_of_none iter db hans]
        refine ⟨rfl, ?_⟩
        rintro resp hresp
        obtain rfl : [] = resp := Except.ok.inj hresp
        decide
    | some id =>
        rw [hreq, Option.map_some] at hans
        refine ⟨by rw [handlePacket_of_some iter db hans], ?_⟩
        exact (users_not_affirmed_iff hreq).mpr (husers id hreq)

/-- An invalid request is without effect exactly if it names nobody to register, or is of
another type, and is no Users request of a user whose list fits the transmit buffer. -/
theorem invalid_ineffective_iff (iter : Traversal UserId UserMetadata) (db : Database)
    {recvs : List Recv} {bs : Bytes} (harrived : arrived bufferSize recvs = some bs) :
    (Invalid bs → Ineffective iter db recvs) ↔
      (Invalid bs → Registrar.packetUsername (decoded bs) = none ∧
        ∀ id ∈ usersRequestor (decoded bs), db.userExists id = true →
          1015 < listSize iter db id) :=
  imp_congr_right fun _ => ineffective_iff harrived

/-- A header of the type of a Users request, and no request. -/
theorem invalid_ineffective_bare_header :
    Invalid [10, 2, 8, 1] ∧ Ineffective (.ascending _ _) .empty [.data [10, 2, 8, 1]] := by
  have hdecoded : decoded [10, 2, 8, 1] = { hdr := some { packetType := some .requestUsers } } := by
    decide +kernel
  have hinvalid : Invalid [10, 2, 8, 1] := by
    refine .inr ?_
    rw [hdecoded]
    rintro ⟨x, hx, -⟩
    cases hx
  refine ⟨hinvalid, (invalid_ineffective_iff (.ascending _ _) .empty (by decide)).mpr ?_ hinvalid⟩
  intro _
  rw [hdecoded]
  exact ⟨rfl, nofun⟩

/-- A registration without a header. -/
theorem not_ineffective_no_header :
    Database.Reachable .empty ∧ Invalid [18, 3, 10, 1, 65] ∧
      ¬Ineffective (.ascending _ _) .empty [.data [18, 3, 10, 1, 65]] := by
  have hdecoded : decoded [18, 3, 10, 1, 65] = { reqReg := some { username := some [65] } } := by
    decide +kernel
  refine ⟨.empty, .inr ?_, fun hnone => ?_⟩
  · rw [hdecoded]
    exact id
  · have harrived : arrived bufferSize [.data [18, 3, 10, 1, 65]] = some [18, 3, 10, 1, 65] := by
      decide
    obtain ⟨hdb, -⟩ := hnone _ (handleRequest_of_bytes harrived)
    have hans : answer (.ascending _ _) .empty (decoded [18, 3, 10, 1, 65])
        = some (registerResponse 0, (Database.empty.registerUser [65]).2) := by
      rw [hdecoded]
      rfl
    rw [handlePacket_of_some _ _ hans] at hdb
    exact Database.registerUser_ne .empty [65] hdb

end ServerApp

end ChatApp
