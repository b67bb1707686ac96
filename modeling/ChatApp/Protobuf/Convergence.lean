import ChatApp.Protobuf.Announcements

set_option autoImplicit false

/-! # Directories converge

A directory is as old as the last poll. Once nobody registers any more, one poll brings it up to
date, where the list is read to its end: from the moment its response has been looked at, whatever
the clients do, the names in the directory are those of all users but the client's own
(`converged_of_run`). So two clients that have polled since the last registration agree.
-/

namespace ChatApp

open Lib

/-! ## One client -/

/-- The directory has everybody else. -/
def Client.Complete (db : Database) (c : Client) : Prop :=
  ∀ id name, db.nameOf id = some name → id ≠ c.app.id → c.app.Knows name

/-- The names listed for a poll are UTF-8, but for the last perhaps: the list is read to its
end. -/
def Client.Readable (db : Database) (c : Client) : ClientEvent → Prop
  | .poll iter =>
      ∀ it ∈ (ServerApp.others iter db c.app.id).dropLast, Utf8.valid it.2.username = true
  | _ => True

instance (db : Database) (c : Client) (e : ClientEvent) : Decidable (c.Readable db e) :=
  match e with
  | .poll _ => inferInstanceAs (Decidable (∀ _ ∈ _, _))
  | .register _ => .isTrue trivial
  | .registered => .isTrue trivial
  | .polled _ => .isTrue trivial
  | .openChat _ => .isTrue trivial
  | .line _ => .isTrue trivial

/-- A client that has polled: it runs, and what it has is complete, or the response that it
has not read yet is one that has everybody else. -/
structure Client.Asked (db : Database) (c : Client) : Prop where
  running : c.running = true
  directory : c.reply = none → c.Complete db
  reply : ∀ response ∈ c.reply, ∃ iter, c.Awaits db iter response ∧
    ServerApp.legible (ServerApp.others iter db c.app.id) = ServerApp.others iter db c.app.id

variable {db db' : Database} {c c' : Client}

/-- A list that is read to its end has every name that the client knows. -/
theorem Client.Inv.keeps_of_readable {e : ClientEvent} (h : c.Inv db)
    (hreadable : c.Readable db e) : c.Keeps db e := by
  cases e with
  | poll iter =>
      intro name hname
      obtain ⟨id, hid⟩ := (UnorderedMap.mem_iff_getElem? _ _).mp (Std.ExtTreeMap.mem_keys.mp hname)
      obtain ⟨hname, hne⟩ := h.known name id hid
      obtain ⟨u, hfind, rfl⟩ := Option.map_eq_some_iff.mp hname
      rw [(ServerApp.legible_eq_self_iff _).mpr hreadable]
      exact ⟨(id, u), ServerApp.mem_others.mpr ⟨hfind, hne⟩, rfl⟩
  | register username => exact trivial
  | registered => exact trivial
  | polled iter' => exact trivial
  | openChat targetUser => exact trivial
  | line msg => exact trivial

/-- Only a registration changes the database. -/
theorem Client.Moves.db_eq {e : ClientEvent} (h : c.Moves db e db' c')
    (he : e.isRegister = false) : db' = db := by
  cases h with
  | register username hidle => cases he
  | _ => rfl

/-- **Reading a list to its end** makes the directory complete. -/
theorem Client.Awaits.complete {iter : Traversal UserId UserMetadata} {response : Bytes}
    (h : c.Awaits db iter response)
    (hread : ServerApp.legible (ServerApp.others iter db c.app.id)
      = ServerApp.others iter db c.app.id) (iter' : Traversal Bytes UserId)
    (rxBuffer : Bytes) (reply : Option Bytes) :
    Client.Complete db
      { c with app := (c.app.updateOnlineUsers iter' (ServerApp.usersRead iter db c.app.id)).1
               rxBuffer := rxBuffer, reply := reply } := by
  intro id name hname hne
  rw [App.id_updateOnlineUsers] at hne
  obtain ⟨u, hfind, rfl⟩ := Option.map_eq_some_iff.mp hname
  have hit : (id, u) ∈ ServerApp.legible (ServerApp.others iter db c.app.id) := by
    rw [hread]
    exact ServerApp.mem_others.mpr ⟨hfind, hne⟩
  obtain ⟨id', hid'⟩ := ServerApp.newNameToId_of_mem_legible h.enrolled hit
  refine ⟨id', ?_⟩
  by_cases hsame : App.newNameToId (ServerApp.usersRead iter db c.app.id) = c.app.nameToId
  · show (c.app.updateOnlineUsers iter' _).1.nameToId[u.username]? = some id'
    rw [App.updateOnlineUsers_of_same iter' (.inr hsame), ← hsame]
    exact hid'
  · show (c.app.updateOnlineUsers iter' _).1.nameToId[u.username]? = some id'
    rw [App.updateOnlineUsers_of_new iter' (ServerApp.positive_usersRead h.enrolled) hsame]
    exact hid'

/-- A poll whose list is read to its end asks. -/
theorem Client.Inv.asked (h : c.Inv db) {iter : Traversal UserId UserMetadata}
    (hfits : c.Fits db (.poll iter)) (hreadable : c.Readable db (.poll iter))
    (hmoves : c.Moves db (.poll iter) db' c') : c'.Asked db' := by
  have hkeeps := h.keeps_of_readable hreadable
  cases hmoves with
  | poll iter hrunning hreply htx =>
      refine ⟨hrunning, by simp, ?_⟩
      rintro response ⟨⟩
      refine ⟨iter, ⟨rfl, hfits, h.enrolled hrunning, h.buffer, ?_⟩,
        (ServerApp.legible_eq_self_iff _).mpr hreadable⟩
      rintro name ⟨id, hid⟩
      exact hkeeps name (Std.ExtTreeMap.mem_keys.mpr
        ((UnorderedMap.mem_iff_getElem? _ _).mpr ⟨id, hid⟩))

/-- What is read of a response depends on its bytes. -/
theorem Client.Awaits.usersRead_eq {db₀ : Database} {iter iter' : Traversal UserId UserMetadata}
    {response : Bytes} (h : c.Awaits db iter response) (h' : c.Awaits db₀ iter' response) :
    ServerApp.usersRead iter' db₀ c.app.id = ServerApp.usersRead iter db c.app.id := by
  obtain ⟨_, hread, -⟩ := h.read (.ascending _ _)
  obtain ⟨_, hread', -⟩ := h'.read (.ascending _ _)
  rw [hread] at hread'
  exact (Prod.mk.inj (Option.some.inj hread')).1.symm

/-- Looking at the response completes the directory. -/
theorem Client.Asked.polled {iter' : Traversal Bytes UserId} (h : c.Asked db)
    (hmoves : c.Moves db (.polled iter') db' c') : c'.Complete db' := by
  cases hmoves with
  | polled iter' hreply hext hawaits hbuffer =>
      obtain ⟨iter, hawaits', hread⟩ := h.reply _ hreply
      rw [hawaits'.usersRead_eq hawaits]
      exact hawaits'.complete hread iter' _ none

/-- What a client waits for does not depend on its chat. -/
theorem Client.Asked.withChat (h : c.Asked db) (chat : Option Bytes) (chatTxBuffer : Bytes) :
    Client.Asked db { c with chat := chat, chatTxBuffer := chatTxBuffer } := by
  refine ⟨h.running, h.directory, ?_⟩
  intro response hresponse
  obtain ⟨iter, hawaits, hread⟩ := h.reply response hresponse
  exact ⟨iter, ⟨hawaits.sent, hawaits.fits, hawaits.enrolled, hawaits.buffer, hawaits.keeps⟩, hread⟩

/-- **The step lemma for a client**: an event other than a registration leaves a client that has
asked, and one that is up to date, as they are. -/
theorem Client.Asked.next {e : ClientEvent} (h : c.Asked db) (hinv : c.Inv db)
    (he : e.isRegister = false) (hfits : c.Fits db e) (hreadable : c.Readable db e)
    (hmoves : c.Moves db e db' c') :
    c'.Asked db' ∧ (c.Complete db → c'.Complete db') := by
  have hpolled {iter' : Traversal Bytes UserId} (hmoves : c.Moves db (.polled iter') db' c') :=
    h.polled hmoves
  have hasked {iter : Traversal UserId UserMetadata} (hfits : c.Fits db (.poll iter))
      (hreadable : c.Readable db (.poll iter)) (hmoves : c.Moves db (.poll iter) db' c') :=
    hinv.asked hfits hreadable hmoves
  cases hmoves with
  | register username hidle => cases he
  | registered hidle hex =>
      rw [h.running] at hidle
      cases hidle
  | poll iter hrunning hreply htx =>
      exact ⟨hasked hfits hreadable (.poll iter hrunning hreply htx), id⟩
  | polled iter' hreply hext hawaits hbuffer =>
      have hcomplete := hpolled (.polled iter' hreply hext hawaits hbuffer)
      exact ⟨⟨h.running, fun _ => hcomplete, by simp⟩, fun _ => hcomplete⟩
  | unavailable targetUser => exact ⟨h, id⟩
  | openChat hknows => exact ⟨h.withChat _ _, id⟩
  | leave => exact ⟨h.withChat none c.chatTxBuffer, id⟩
  | line msg htx => exact ⟨h.withChat c.chat _, id⟩

namespace Deployment

/-- The list for a poll is read to its end. -/
def Readable (s : Deployment) (e : Nat × ClientEvent) : Prop := (s.clients e.1).Readable s.db e.2

instance (s : Deployment) (e : Nat × ClientEvent) : Decidable (s.Readable e) :=
  inferInstanceAs (Decidable (Client.Readable _ _ _))

variable {s s' : Deployment} {log log' : List (Entry Deployment (Nat × ClientEvent) Unit)}
  {events rest : List (Nat × ClientEvent)}

/-! ## Runs -/

/-- What holds before the events of `rest`, all of it. -/
structure Sound (s : Deployment) (rest : List (Nat × ClientEvent)) : Prop where
  inv : ∃ log, Inv s log rest
  along : Along step (fun s e => s.Fits e ∧ s.Readable e) s rest

theorem Sound.step {e : Nat × ClientEvent} (h : Sound s (e :: rest))
    (hstep : s.step e = .ok (s', ())) : Sound s' rest := by
  obtain ⟨log, hinv⟩ := h.inv
  obtain ⟨⟨hfits, hreadable⟩, hrest⟩ := h.along
  have hkeeps := (hinv.clients e.1).keeps_of_readable hreadable
  exact ⟨⟨_, hinv.step hfits hkeeps hstep⟩, hrest s' () hstep⟩

theorem Sound.run (h : Sound s (events ++ rest))
    (hrun : run Deployment.step s events = .ok (s', log)) : Sound s' rest := by
  induction events generalizing s log with
  | nil =>
      obtain ⟨rfl, -⟩ : s = s' ∧ [] = log := by simpa [Lib.run] using hrun
      exact h
  | cons e events ih =>
      obtain ⟨t, b, log', hstep, hrest, -⟩ := run_cons_eq_ok.mp hrun
      exact ih (h.step hstep) hrest

/-- What a step does to the client it is about. -/
theorem Sound.moves {k : Nat} {e : ClientEvent} (h : Sound s ((k, e) :: rest))
    (hstep : s.step (k, e) = .ok (s', ())) :
    ∃ db c, (s.clients k).Moves s.db e db c ∧ s' = ⟨db, Function.update s.clients k c⟩ := by
  obtain ⟨log, hinv⟩ := h.inv
  obtain ⟨⟨db, c⟩, hnext, hs'⟩ := bind_eq_ok.mp hstep
  simp only [pure_eq_ok, Except.ok.injEq, Prod.mk.injEq, and_true] at hs'
  exact ⟨db, c, (hinv.clients k).moves h.along.1.1 hnext, hs'.symm⟩

/-- **A quiet step** leaves every client that has asked, or is up to date, as it is. -/
theorem asked_of_step {e : Nat × ClientEvent} (h : Sound s (e :: rest))
    (he : e.2.isRegister = false) (hstep : s.step e = .ok (s', ())) {k : Nat}
    (hasked : (s.clients k).Asked s.db) :
    (s'.clients k).Asked s'.db ∧
      ((s.clients k).Complete s.db → (s'.clients k).Complete s'.db) := by
  obtain ⟨log, hinv⟩ := h.inv
  obtain ⟨j, e⟩ := e
  obtain ⟨db, c, hmoves, rfl⟩ := h.moves hstep
  obtain rfl : db = s.db := hmoves.db_eq he
  by_cases hk : k = j
  · subst hk
    show Client.Asked s.db (Function.update s.clients k c k) ∧
      (_ → Client.Complete s.db (Function.update s.clients k c k))
    rw [Function.update_self]
    exact hasked.next (hinv.clients k) he h.along.1.1 h.along.1.2 hmoves
  · show Client.Asked s.db (Function.update s.clients j c k) ∧
      (_ → Client.Complete s.db (Function.update s.clients j c k))
    rw [Function.update_of_ne hk]
    exact ⟨hasked, id⟩

/-- A quiet run does, too. -/
theorem asked_of_run (h : Sound s (events ++ rest)) (hquiet : ∀ e ∈ events, e.2.isRegister = false)
    (hrun : run step s events = .ok (s', log)) {k : Nat} (hasked : (s.clients k).Asked s.db) :
    (s'.clients k).Asked s'.db ∧
      ((s.clients k).Complete s.db → (s'.clients k).Complete s'.db) := by
  induction events generalizing s log with
  | nil =>
      obtain ⟨rfl, -⟩ : s = s' ∧ [] = log := by simpa [run] using hrun
      exact ⟨hasked, id⟩
  | cons e events ih =>
      obtain ⟨t, b, log', hstep, hrest, -⟩ := run_cons_eq_ok.mp hrun
      obtain ⟨he, hevents⟩ := List.forall_mem_cons.mp hquiet
      obtain ⟨hasked', hcomplete⟩ := asked_of_step h he hstep hasked
      obtain ⟨hasked'', hcomplete'⟩ := ih (h.step hstep) hevents hrest hasked'
      exact ⟨hasked'', fun hc => hcomplete' (hcomplete hc)⟩

/-- **Directories converge.** Let client `k` poll, and look at the response, after the last
registration of a run in which the packets fit the buffers and the lists are read to their ends.
Then at the end of the run, whatever happens in between and after, the names in its directory are
those of all users but its own. -/
theorem converged_of_run {ids : Nat → UserId} {before between after : List (Nat × ClientEvent)}
    {k : Nat} {iter : Traversal UserId UserMetadata} {iter' : Traversal Bytes UserId}
    (hrun : run step (start ids)
      (before ++ ((k, .poll iter) :: (between ++ (k, .polled iter') :: after))) = .ok (s, log))
    (hregistrations : registrations before ≤ 2 ^ 32)
    (hquiet : ∀ e ∈ between ++ after, e.2.isRegister = false)
    (hfits : Along step Fits (start ids)
      (before ++ ((k, .poll iter) :: (between ++ (k, .polled iter') :: after))))
    (hreadable : Along step Readable (start ids)
      (before ++ ((k, .poll iter) :: (between ++ (k, .polled iter') :: after)))) (name : Bytes) :
    (s.clients k).app.Knows name ↔
      ∃ id, s.db.nameOf id = some name ∧ id ≠ (s.clients k).app.id := by
  have hsound : Sound (start ids)
      (before ++ ((k, .poll iter) :: (between ++ (k, .polled iter') :: after))) := by
    refine ⟨⟨[], Inv.start ?_ ids⟩, hfits.and hreadable⟩
    have hzero : registrations (between ++ after) = 0 := by
      rw [registrations, List.countP_eq_zero]
      exact fun e he => by simp [hquiet e he]
    have hsplit : registrations
        (before ++ ((k, .poll iter) :: (between ++ (k, .polled iter') :: after)))
          = registrations before + registrations (between ++ after) := by
      simp [registrations, List.countP_append, ClientEvent.isRegister]
    omega
  obtain ⟨s₀, log₀, log₁, hbefore, hrun, -⟩ := run_append_eq_ok.mp hrun
  obtain ⟨s₁, ⟨⟩, log₂, hpoll, hrun, -⟩ := run_cons_eq_ok.mp hrun
  obtain ⟨s₂, log₃, log₄, hbetween, hrun, -⟩ := run_append_eq_ok.mp hrun
  obtain ⟨s₃, ⟨⟩, log₅, hpolled, hafter, -⟩ := run_cons_eq_ok.mp hrun
  have hsound₀ := hsound.run hbefore
  have hsound₁ := hsound₀.step hpoll
  have hsound₂ := hsound₁.run hbetween
  have hsound₃ : Sound s₃ (after ++ []) := by
    rw [List.append_nil]
    exact hsound₂.step hpolled
  -- From the poll on, what the client has is on its way to be complete.
  have hasked₁ : (s₁.clients k).Asked s₁.db := by
    obtain ⟨db, c, hmoves, rfl⟩ := hsound₀.moves hpoll
    obtain ⟨log, hinv⟩ := hsound₀.inv
    show Client.Asked db (Function.update s₀.clients k c k)
    rw [Function.update_self]
    exact (hinv.clients k).asked hsound₀.along.1.1 hsound₀.along.1.2 hmoves
  have hasked₂ : (s₂.clients k).Asked s₂.db :=
    (asked_of_run hsound₁ (fun e he => hquiet e (List.mem_append_left _ he)) hbetween hasked₁).1
  have hasked₃ := (asked_of_step hsound₂ rfl hpolled hasked₂).1
  have hcomplete₃ : (s₃.clients k).Complete s₃.db := by
    obtain ⟨db, c, hmoves, rfl⟩ := hsound₂.moves hpolled
    show Client.Complete db (Function.update s₂.clients k c k)
    rw [Function.update_self]
    exact hasked₂.polled hmoves
  have hcomplete : (s.clients k).Complete s.db :=
    (asked_of_run hsound₃ (fun e he => hquiet e (List.mem_append_right _ he)) hafter hasked₃).2
      hcomplete₃
  obtain ⟨log', hinv⟩ := (hsound₃.run hafter).inv
  constructor
  · rintro ⟨id, hid⟩
    exact ⟨id, (hinv.clients k).known name id hid⟩
  · rintro ⟨id, hname, hne⟩
    exact hcomplete id name hname hne

/-- The first user polls after the second has registered; meanwhile the second starts. -/
theorem converged_of_run_two_users :
    let before : List (Nat × ClientEvent) :=
      [(0, .register [0x41]), (0, .registered), (1, .register [0x42])]
    let between : List (Nat × ClientEvent) := [(1, .registered)]
    ∃ s log, run step (start fun _ => 7) (before ++ ((0, .poll (.ascending _ _))
        :: (between ++ (0, .polled (.ascending _ _)) :: []))) = .ok (s, log) ∧
      ((s.clients 0).app.Knows [0x42] ↔
        ∃ id, s.db.nameOf id = some [0x42] ∧ id ≠ (s.clients 0).app.id) := by
  intro before between
  have hok : (run step (start fun _ => 7) (before ++ ((0, .poll (.ascending _ _))
      :: (between ++ (0, .polled (.ascending _ _)) :: [])))).map (fun _ => true) = .ok true := by
    decide +kernel
  obtain ⟨⟨s, log⟩, hrun, -⟩ := map_eq_ok.mp hok
  refine ⟨s, log, hrun, converged_of_run hrun ?_ ?_ (by decide +kernel) (by decide +kernel) [0x42]⟩
  · show 2 ≤ 2 ^ 32
    decide
  · simp [between, ClientEvent.isRegister]

end Deployment

end ChatApp
