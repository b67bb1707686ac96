import ChatApp.Protobuf.Directories

set_option autoImplicit false

/-! # What the poll for online users writes

`periodicGetOnlineUsers` has a line for a negative response and one for an empty directory, and
`printOnlineUsers` passes over the user's own name. In a deployment none of this ever happens: a
client polls under the id it was assigned, so the response is positive, and its directory
never has its own user in it and never gets empty again. What a poll writes is nothing, or
the new directory as a whole (`announcements_of_run`).
-/

namespace ChatApp

open Lib Lib.Wire Lib.Wire.Message

/-- A poll that was announced as it should: nothing is written and nothing has changed, or the
directory is another one, has everyone it had and somebody at all, but not the user himself, and
every name of it is written. -/
def App.Announced (iter : Traversal Bytes UserId) (app : App) (result : App × List Bytes) : Prop :=
  result = (app, []) ∨
    result.1.nameToId ≠ app.nameToId ∧ (∀ name, app.Knows name → result.1.Knows name) ∧
      (∃ name, result.1.Knows name) ∧
      (∀ (name : Bytes) (id : UserId), result.1.nameToId[name]? = some id → id ≠ app.id) ∧
      result.2 = text "**********Updated Online users: "
        :: (iter.order result.1.nameToId).map Prod.fst

/-! ## One client -/

variable {db db₀ : Database} {c : Client}

/-- **One look at a response.** -/
theorem Client.Awaits.announced {iter : Traversal UserId UserMetadata} {response : Bytes}
    (h : c.Awaits db₀ iter response) (iter' : Traversal Bytes UserId) :
    c.app.Announced iter'
      (c.app.updateOnlineUsers iter' (ServerApp.usersRead iter db₀ c.app.id)) := by
  generalize hp : ServerApp.usersRead iter db₀ c.app.id = respPacket
  have hpositive : Positive respPacket := hp ▸ ServerApp.positive_usersRead h.enrolled
  have hvalue : ¬((respPacket.respUsers.getD {}).respValue).getD 0 ≠ 0 := not_not.mpr hpositive
  obtain ⟨hknown, hkept⟩ := h.newNameToId (.refl db₀)
  rw [hp] at hknown hkept
  by_cases hsame : App.newNameToId respPacket = c.app.nameToId
  · refine .inl ?_
    rw [App.updateOnlineUsers, if_neg hvalue, if_pos hsame]
  · -- An empty list would be that of an empty directory, which was not another one.
    have hsome : ∃ (name : Bytes) (id : UserId), (App.newNameToId respPacket)[name]? = some id := by
      by_contra hnone
      simp only [not_exists] at hnone
      refine hsame (Std.ExtTreeMap.ext_getElem? fun name => ?_)
      rcases hnew : (App.newNameToId respPacket)[name]? with _ | id
      · rcases hold : c.app.nameToId[name]? with _ | id
        · rfl
        · obtain ⟨id', hid'⟩ := hkept name ⟨id, hold⟩
          exact absurd hid' (hnone name id')
      · exact absurd hnew (hnone name id)
    have hsize : (App.newNameToId respPacket).size ≠ 0 := by
      obtain ⟨name, id, hid⟩ := hsome
      have hmem := (iter'.mem_order_iff _ _ _).mpr hid
      rw [← iter'.order_length]
      exact (List.length_pos_of_mem hmem).ne'
    have hall : (iter'.order (App.newNameToId respPacket)).filter
        (fun mapping => mapping.2 ≠ c.app.id) = iter'.order (App.newNameToId respPacket) := by
      refine List.filter_eq_self.mpr fun mapping hmem => ?_
      exact decide_eq_true
        (hknown mapping.1 mapping.2 ((iter'.mem_order_iff _ _ _).mp hmem)).2
    refine .inr ?_
    simp only [App.updateOnlineUsers]
    rw [if_neg hvalue, if_neg hsame, if_neg hsize]
    refine ⟨hsame, hkept, hsome, fun name id hid => (hknown name id hid).2, ?_⟩
    rw [App.printOnlineUsers, hall]

namespace Deployment

/-! ## Runs -/

/-- What a poll in the log made of the response. -/
def AnnouncesRight (e : Entry Deployment (Nat × ClientEvent) Unit) : Prop :=
  ∀ k iter response, e.input = (k, .polled iter) →
    (e.before.clients k).reply = some response →
    ∃ respPacket app rxBuffer out,
      ((e.before.clients k).app.roundOnlineUsers iter (e.before.clients k).rxBuffer
        (e.before.clients k).txBuffer [.data response]).2
          = some (respPacket, app, rxBuffer, out) ∧
      (e.before.clients k).app.Announced iter (app, out)

/-- **What a poll writes.** In every run with at most `2 ^ 32` registrations in which the packets
fit the buffers and every list is read far enough, each look at a response to a poll leaves the
directory alone and writes nothing, or it makes a new directory that has everyone and somebody at
all, and writes every name in it. -/
theorem announcements_of_run {ids : Nat → UserId} {events : List (Nat × ClientEvent)}
    {s : Deployment} {log : List (Entry Deployment (Nat × ClientEvent) Unit)}
    (hrun : run step (start ids) events = .ok (s, log))
    (hregistrations : registrations events ≤ 2 ^ 32)
    (hfits : Along step Fits (start ids) events) (hkeeps : Along step Keeps (start ids) events) :
    ∀ e ∈ log, AnnouncesRight e := by
  have hinv := run_induction_of_ok (I := fun s log rest => Inv s log rest ∧
      ∀ e ∈ log, AnnouncesRight e)
    (fun s log e rest s' _ ⟨hI, hlog⟩ hp hstep => by
      refine ⟨hI.step hp.1 hp.2 hstep, forall_mem_concat hlog ?_⟩
      rintro k iter' response - hreply
      obtain ⟨db₀, iter, -, hawaits⟩ := (hI.clients k).reply response hreply
      obtain ⟨rxBuffer, hread, -⟩ := hawaits.read iter'
      exact ⟨_, _, rxBuffer, _, hread, hawaits.announced iter'⟩)
    ⟨Inv.start hregistrations ids, List.forall_mem_nil _⟩ (hfits.and hkeeps) hrun
  rw [List.nil_append] at hinv
  exact hinv.2

/-- A second user registers between two polls of the first. -/
theorem announcements_of_run_two_polls :
    let events : List (Nat × ClientEvent) :=
      [(0, .register [0x41]), (0, .registered), (0, .poll (.ascending _ _)),
        (0, .polled (.ascending _ _)), (1, .register [0x42]), (0, .poll (.ascending _ _)),
        (0, .polled (.ascending _ _))]
    registrations events ≤ 2 ^ 32 ∧
      ∃ s log, run step (start fun _ => 7) events = .ok (s, log) ∧ ∀ e ∈ log, AnnouncesRight e := by
  intro events
  have hregistrations : registrations events ≤ 2 ^ 32 := by
    show 2 ≤ 2 ^ 32
    decide
  have hok : (run step (start fun _ => 7) events).map (fun _ => true) = .ok true := by
    decide +kernel
  obtain ⟨⟨s, log⟩, hrun, -⟩ := map_eq_ok.mp hok
  exact ⟨hregistrations, s, log, hrun, announcements_of_run hrun hregistrations
    (by decide +kernel) (by decide +kernel)⟩

end Deployment

end ChatApp
