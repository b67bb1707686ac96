import ChatApp.Protobuf.Segmentation

set_option autoImplicit false

/-! # The identity an application takes

`registerUser` prints what is wrong with the response and takes the id in it all the same; an
absent id reads as zero, which is the id of the first user. `run` starts the loops with
whatever it comes back with. So an application has the id the server assigned exactly if the
response is a registration's, is positive and has an id (`keepsIdentity_iff`).
-/

namespace ChatApp

open Lib Lib.Wire Lib.Wire.Message

/-- A positive response to a registration, with the id. -/
def Mcc.Packet.Assigns (p : Mcc.Packet) (id : UserId) : Prop :=
  p.hdr.bind (·.packetType) = some .respRegister ∧
    ∃ x, p.respReg = some x ∧ x.respValue = some 0 ∧ x.assignedId = some id

namespace App

/-- The checks that are made: neither the type of the packet nor the presence of an id is
among them. -/
theorem registrationErrors_eq_nil_iff (p : Mcc.Packet) :
    registrationErrors p = [] ↔ p.hdr.isSome = true ∧ p.respReg.bind (·.respValue) = some 0 := by
  obtain ⟨hdr, reqReg, reqUsers, reqSend, reqRecv, respReg⟩ := p
  rcases hdr with - | hdr
  · simp [registrationErrors]
  · rcases respReg with - | ⟨value, id⟩
    · simp [registrationErrors]
    · rcases value with - | value
      · simp [registrationErrors]
      · simp [registrationErrors]

/-- The bytes that arrive are a whole packet, which assigns the id. -/
def Assigned (recvs : List Recv) (id : UserId) : Prop :=
  ∃ bs p, arrived bufferSize recvs = some bs ∧ (parseFromArray bs : Mcc.Packet × Bool) = (p, true)
    ∧ p.Assigns id

/-- What `registerUser` reports, once a chunk has arrived. -/
def reported (recvs : List Recv) : List Bytes :=
  ((decodedFrom (List.replicate bufferSize 0) recvs).map registrationErrors).getD []

/-- The loops are started with the id the server assigned; otherwise an error is reported, and
they are not started. -/
def KeepsIdentity (app : App) (username : Bytes) (recvs : List Recv) : Prop :=
  match app.run username recvs with
  | some app' => Assigned recvs app'.id
  | none => reported recvs ≠ []

variable {app : App} {username : Bytes} {recvs : List Recv}

/-- The loops are started once a chunk has arrived, with the id in what it decodes to. -/
theorem run_eq (app : App) (username : Bytes) (recvs : List Recv) :
    app.run username recvs = (decodedFrom (List.replicate bufferSize 0) recvs).map fun p =>
      { app with username := username, id := ((p.respReg.getD {}).assignedId).getD 0 } := by
  rw [run, registerUser, decodedFrom]
  cases receive (List.replicate bufferSize 0) recvs <;> rfl

/-- What is decoded from the cleared buffer if a whole packet arrives. -/
theorem decodedFrom_of_whole {bs : Bytes} {p : Mcc.Packet}
    (harrived : arrived bufferSize recvs = some bs) (hparse : parseFromArray bs = (p, true)) :
    decodedFrom (List.replicate bufferSize 0) recvs = some p := by
  rw [decodedFrom_eq, harrived, Option.map_some, List.drop_replicate, parse_append_zeros hparse]

/-- The application has an id of its own as soon as the server has assigned one. -/
theorem run_of_assigned {id : UserId} (h : Assigned recvs id) :
    app.run username recvs = some { app with username := username, id := id } := by
  obtain ⟨bs, p, harrived, hparse, -, x, hx, -, hid⟩ := h
  rw [run_eq, decodedFrom_of_whole harrived hparse, Option.map_some, hx, Option.getD_some, hid,
    Option.getD_some]

/-- **An application keeps to the id the server assigned exactly if it is assigned one.** In
every other case it reports an error at most, and goes on. -/
theorem keepsIdentity_iff (app : App) (username : Bytes) (recvs : List Recv) :
    app.KeepsIdentity username recvs ↔ ∃ id, Assigned recvs id := by
  constructor
  · intro hkeeps
    rw [KeepsIdentity, run_eq, reported] at hkeeps
    cases hdecoded : decodedFrom (List.replicate bufferSize 0) recvs with
    | none =>
        rw [hdecoded] at hkeeps
        exact absurd rfl hkeeps
    | some p =>
        rw [hdecoded] at hkeeps
        exact ⟨_, hkeeps⟩
  · rintro ⟨id, hassigned⟩
    rw [KeepsIdentity, run_of_assigned hassigned]
    exact hassigned

/-- The connection fails. The application goes on as user 0, and polls for the messages of
that user. -/
theorem not_keepsIdentity_error :
    ¬App.KeepsIdentity {} [65] [.error] ∧
      ∃ app', App.run {} [65] [.error] = some app' ∧
        (app'.roundMessages (List.replicate bufferSize 0) (List.replicate bufferSize 0) []).1.1
          = .ok (serialize (recvRequest 0)) := by
  have hdecoded : decodedFrom (List.replicate bufferSize 0) [.error] = some {} := by
    decide +kernel
  have hrun : App.run {} [65] [.error] = some { username := [65], id := 0 } := by
    rw [run_eq, hdecoded]
    rfl
  have hfits : byteSizeLong (recvRequest 0) ≤ (List.replicate bufferSize (0 : UInt8)).length := by
    rw [List.length_replicate]
    decide
  refine ⟨?_, _, hrun, ((sentWhole_iff _ _).mpr hfits).2⟩
  rw [KeepsIdentity, hrun]
  rintro ⟨bs, p, harrived, hparse, htype, -⟩
  obtain rfl : [] = bs := Option.some.inj harrived
  obtain rfl : {} = p := congrArg Prod.fst hparse
  cases htype

end App

end ChatApp
