import ChatApp.Protobuf.History

set_option autoImplicit false

/-! # How many users the protobuf server can list

A Users response lists all the others in one packet, and the transmit buffer has 1024 bytes. So
whether a user's requests are answered depends on who has registered, and on nothing else
(`users_of_run`). Nobody ever leaves: once the list is too long for a user it stays so, and
with 165 users it is too long for all of them, however short their names (`silent_of_run`).
-/

namespace ChatApp

open Lib Lib.Wire Lib.Wire.Message Database

namespace ServerApp

/-! ## The size of a list -/

/-- What a user takes up in a list. -/
def entrySize (id : ℕ) (name : Bytes) : ℕ := delimSize (varintSize id + delimSize name.length)

/-- What the list of the users other than `id` takes up. -/
def directorySize (names : List Bytes) (id : ℕ) : ℕ :=
  ((names.zipIdx.filter (fun e => e.2 ≠ id)).map fun e => entrySize e.2 e.1).sum

/-- The list is too long for the transmit buffer, which holds nine bytes besides. -/
def Overflows (names : List Bytes) (id : ℕ) : Prop :=
  id < names.length ∧ 1015 < directorySize names id

instance (names : List Bytes) (id : ℕ) : Decidable (Overflows names id) :=
  inferInstanceAs (Decidable (_ ∧ _))

variable {iter : Traversal UserId UserMetadata} {db db' : Database} {names : List Bytes}

/-- A database has the users that registered, each once. -/
theorem perm_zipIdx (h : db.Named names) (hle : names.length ≤ 2 ^ 32) :
    ((iter.order db.userMap).map fun it => (it.2.username, it.1.toNat)).Perm names.zipIdx := by
  have hinj : Function.Injective UInt32.toNat := fun a b => UInt32.toNat_inj.mp
  have hnodup : ((iter.order db.userMap).map fun it => (it.2.username, it.1.toNat)).Nodup := by
    refine List.Nodup.of_map Prod.snd ?_
    rw [List.map_map]
    have hids := (iter.order_nodup db.userMap).map hinj
    rwa [List.map_map] at hids
  have hnodup' : names.zipIdx.Nodup := by
    refine List.Nodup.of_map Prod.snd ?_
    rw [List.zipIdx_map_snd]
    exact List.nodup_range'
  refine (List.perm_ext_iff_of_nodup hnodup hnodup').mpr ?_
  rintro ⟨name, i⟩
  rw [List.mem_zipIdx_iff_getElem?, List.mem_map]
  constructor
  · rintro ⟨⟨id, user⟩, hmem, heq⟩
    obtain ⟨rfl, rfl⟩ := Prod.mk.inj heq
    rw [iter.mem_order_iff] at hmem
    rw [← h.username id, nameOf, find, hmem]
    rfl
  · intro hi
    -- The place of a name in the list is an id.
    have hlt : i < names.length := (List.getElem?_eq_some_iff.mp hi).1
    have hid : (UInt32.ofNat i).toNat = i := by
      rw [UInt32.toNat_ofNat', Nat.mod_eq_of_lt (by omega)]
    have hname : db.nameOf (UInt32.ofNat i) = some name := by
      rw [h.username, hid, hi]
    obtain ⟨user, huser, rfl⟩ := Option.map_eq_some_iff.mp hname
    exact ⟨(UInt32.ofNat i, user), (iter.mem_order_iff db.userMap _ user).mpr huser,
      Prod.ext rfl hid⟩

/-- **The size of a list depends on the names alone**, in the order they were registered. -/
theorem listSize_eq (h : db.Named names) (hle : names.length ≤ 2 ^ 32) {id : UserId}
    (hid : id.toNat < names.length) : listSize iter db id = directorySize names id.toNat := by
  have hex : db.userExists id = true := (h.counted.exists_iff id).mpr hid
  have hfilter : ((iter.order db.userMap).map fun it => (it.2.username, it.1.toNat)).filter
      (fun e => e.2 ≠ id.toNat)
      = ((iter.order db.userMap).filter (fun it => it.1 ≠ id)).map
          fun it => (it.2.username, it.1.toNat) := by
    rw [List.filter_map]
    congr 1
    refine List.filter_congr fun it _ => ?_
    simp [UInt32.toNat_inj]
  calc listSize iter db id
      = ((((iter.order db.userMap).filter (fun it => it.1 ≠ id)).map
          fun it => (it.2.username, it.1.toNat)).map fun e => entrySize e.2 e.1).sum := by
        rw [listSize, if_pos hex, List.map_map]
        rfl
    _ = ((((iter.order db.userMap).map fun it => (it.2.username, it.1.toNat)).filter
          (fun e => e.2 ≠ id.toNat)).map fun e => entrySize e.2 e.1).sum := by rw [hfilter]
    _ = directorySize names id.toNat :=
        (((perm_zipIdx h hle).filter _).map _).sum_eq

/-! ## Lists only get longer -/

theorem directorySize_append (names more : List Bytes) (id : ℕ) :
    directorySize names id ≤ directorySize (names ++ more) id := by
  rw [directorySize, directorySize, List.zipIdx_append, List.filter_append, List.map_append,
    List.sum_append]
  exact Nat.le_add_right _ _

theorem Overflows.append {id : ℕ} (h : Overflows names id) (more : List Bytes) :
    Overflows (names ++ more) id := by
  have hlen : id < (names ++ more).length := by
    rw [List.length_append]
    exact Nat.lt_add_right _ h.1
  exact ⟨hlen, lt_of_lt_of_le h.2 (directorySize_append names more id)⟩

/-- What a user takes up at least, whatever the name. -/
theorem entrySize_ge (id : ℕ) (name : Bytes) : 4 + varintSize id ≤ entrySize id name := by
  have hpos (n : ℕ) : 1 ≤ (encodeVarint n).length := by
    rw [encodeVarint, putVarint]
    split_ifs <;> simp
  have hname := hpos name.length
  have hentry := hpos (varintSize id + delimSize name.length)
  rw [entrySize]
  simp only [delimSize] at hentry ⊢
  omega

/-- With 165 users the list is too long for each of them. -/
theorem overflows_of_length (hlen : 165 ≤ names.length) {id : ℕ} (hid : id < names.length) :
    Overflows names id := by
  have htake : (names.take 165).length = 165 := List.length_take_of_le hlen
  have hids : ((names.take 165).zipIdx.filter (fun e => e.2 ≠ id)).map Prod.snd
      = (List.range' 0 165).filter (fun i => i ≠ id) := by
    rw [← htake, ← List.zipIdx_map_snd, List.filter_map, htake]
    rfl
  have hsum : ((List.range' 0 165).map fun i => 4 + varintSize i).sum = 1027 := by decide +kernel
  -- Of the first 165 users one is left out at most, and his entry is small.
  have hleast : 1015 < (((List.range' 0 165).filter (fun i => i ≠ id)).map
      fun i => 4 + varintSize i).sum := by
    by_cases hsmall : id < 165
    · have hmem : id ∈ List.range' 0 165 := List.mem_range'_1.mpr ⟨Nat.zero_le id, hsmall⟩
      have herase : (List.range' 0 165).erase id
          = (List.range' 0 165).filter (fun i => i ≠ id) := by
        rw [List.Nodup.erase_eq_filter List.nodup_range' id]
        exact List.filter_congr fun i _ => by rw [Bool.eq_iff_iff]; simp
      have hperm := ((List.perm_cons_erase hmem).map fun i => 4 + varintSize i).sum_eq
      have hentry := putVarint_length_le 9 id 1 (by omega)
      rw [hsum, List.map_cons, List.sum_cons, herase, varintSize, encodeVarint] at hperm
      omega
    · have hfilter : (List.range' 0 165).filter (fun i => i ≠ id) = List.range' 0 165 := by
        rw [List.filter_eq_self]
        intro i hi
        rw [List.mem_range'_1] at hi
        simp only [decide_eq_true_eq]
        omega
      rw [hfilter, hsum]
      norm_num
  refine ⟨hid, ?_⟩
  calc 1015
      < (((List.range' 0 165).filter (fun i => i ≠ id)).map fun i => 4 + varintSize i).sum := hleast
    _ = (((names.take 165).zipIdx.filter (fun e => e.2 ≠ id)).map
          fun e => 4 + varintSize e.2).sum := by
        rw [← hids, List.map_map]
        rfl
    _ ≤ directorySize (names.take 165) id := List.sum_le_sum fun e _ => entrySize_ge e.2 e.1
    _ ≤ directorySize (names.take 165 ++ names.drop 165) id := directorySize_append _ _ id
    _ = directorySize names id := by rw [List.take_append_drop]

/-! ## Runs -/

/-- Who a connection asks the users for. -/
def requestor (recvs : List Recv) : Option UserId := (received recvs).bind usersRequestor

/-- The names registered so far. -/
def namesOf (log : List (Entry Database (List Recv) (Option Handled))) : List Bytes :=
  (log.map Entry.input).filterMap connectionName

/-- What a connection sends, if its thread gets that far. -/
def sentBy (e : Entry Database (List Recv) (Option Handled)) : Option (Except Fault Bytes) :=
  e.output.map Handled.sent

/-- A connection registers its name, if it has one, and does nothing else to the users. -/
theorem serveConnection_named {recvs : List Recv} {out : Option Handled} (h : db.Named names)
    (hle : (names ++ (connectionName recvs).toList).length ≤ 2 ^ 32)
    (hstep : serveConnection iter db recvs = (db', out)) :
    db'.Named (names ++ (connectionName recvs).toList) := by
  rw [serveConnection, handleRequest_eq] at hstep
  rw [connectionName] at hle ⊢
  rcases hr : received recvs with _ | packet
  · rw [hr] at hstep
    obtain ⟨rfl, -⟩ := Prod.mk.inj hstep
    rw [Option.bind_none, Option.toList_none, List.append_nil]
    exact h
  · rw [hr] at hstep hle
    rw [Option.bind_some] at hle ⊢
    obtain ⟨rfl, -⟩ := Prod.mk.inj hstep
    rcases hname : Registrar.packetUsername packet with _ | username
    · have hdb : (handlePacket iter db packet).db = db := by
        rcases hanswer : answer iter db packet with _ | ⟨resp, db'⟩
        · rw [handlePacket_of_none iter db hanswer]
        · rw [handlePacket_of_some iter db hanswer]
          rw [answer_eq, hname, Option.map_none, Option.none_or] at hanswer
          obtain ⟨id, -, heq⟩ := Option.map_eq_some_iff.mp hanswer
          exact (Prod.mk.inj heq).2.symm
      rw [Option.toList_none, List.append_nil, hdb]
      exact h
    · have hanswer : answer iter db packet
          = some (registerResponse db.nextId, (db.registerUser username).2) := by
        rw [answer_eq, hname]
        rfl
      rw [hname, Option.toList_some, List.length_append, List.length_singleton] at hle
      rw [handlePacket_of_some iter db hanswer]
      exact h.register (by omega) username

/-- **What a Users request is answered**, from the names registered so far. -/
theorem serveConnection_users {recvs : List Recv} {out : Option Handled} (h : db.Named names)
    (hle : names.length ≤ 2 ^ 32) {id : UserId} (hid : requestor recvs = some id)
    (hstep : serveConnection iter db recvs = (db', out)) :
    out.map Handled.sent = some (if Overflows names id.toNat then .error .outOfBounds
      else .ok (serialize (usersResponse iter db id))) := by
  obtain ⟨packet, hpacket, hrequestor⟩ := Option.bind_eq_some_iff.mp hid
  have hanswer := answer_of_usersRequestor iter db hrequestor
  have hfits : byteSizeLong (usersResponse iter db id) ≤ bufferSize ↔
      ¬Overflows names id.toNat := by
    have hbound := answer_fits_iff hanswer (k := 1015) (by norm_num) (by norm_num)
    simp only [hrequestor, Option.mem_some_iff, forall_eq'] at hbound
    by_cases hlt : id.toNat < names.length
    · rw [Overflows, and_iff_right hlt, not_lt, ← listSize_eq h hle hlt]
      exact hbound
    · have hex : ¬db.userExists id = true := mt (h.counted.exists_iff id).mp hlt
      refine iff_of_true (hbound.mpr ?_) (fun hover => hlt hover.1)
      rw [listSize, if_neg hex]
      exact Nat.zero_le _
  rw [serveConnection, handleRequest_eq, hpacket] at hstep
  obtain ⟨-, rfl⟩ := Prod.mk.inj hstep
  rw [Option.map_some, Option.some.injEq]
  split_ifs with hover
  · exact sent_of_large hanswer (not_le.mp (mt hfits.mp (not_not.mpr hover)))
  · exact sent_of_some iter db hanswer (hfits.mpr hover)

variable {conns : List (List Recv)} {log before after : List (Entry Database (List Recv)
  (Option Handled))} {e : Entry Database (List Recv) (Option Handled)} {id : UserId}

/-- The users of a run are those it registered. -/
theorem named_of_run (hnames : (conns.filterMap connectionName).length ≤ 2 ^ 32)
    (hrun : run (total (serveConnection iter)) .empty conns = .ok (db, log)) :
    db.Named (namesOf log) := by
  have hstart : Database.empty.Named (namesOf []) ∧
      (namesOf [] ++ conns.filterMap connectionName).length ≤ 2 ^ 32 := ⟨Named.empty, hnames⟩
  have hinv := run_induction_of_ok (p := fun _ _ => True)
    (I := fun db log rest => db.Named (namesOf log) ∧
      (namesOf log ++ rest.filterMap connectionName).length ≤ 2 ^ 32)
    (fun db log recvs rest db' out ⟨hnamed, hroom⟩ _ hstep => by
      have hlog : namesOf (log ++ [⟨db, recvs, out⟩])
          = namesOf log ++ (connectionName recvs).toList := by
        rw [namesOf, List.map_append, List.filterMap_append]
        rcases hname : connectionName recvs with _ | name <;> simp [namesOf, hname]
      have hcons : (recvs :: rest).filterMap connectionName
          = (connectionName recvs).toList ++ rest.filterMap connectionName := by
        rcases hname : connectionName recvs with _ | name <;> simp [hname]
      rw [hcons, ← List.append_assoc, ← hlog] at hroom
      refine ⟨?_, hroom⟩
      rw [hlog]
      refine serveConnection_named hnamed ?_ (total_eq_ok.mp hstep)
      rw [← hlog]
      rw [List.length_append] at hroom
      omega)
    hstart ((along_iff hrun).mpr fun _ _ => trivial) hrun
  rw [List.nil_append] at hinv
  exact hinv.1

/-- What is sent for a Users request of a run. -/
theorem sentBy_of_run (hnames : (conns.filterMap connectionName).length ≤ 2 ^ 32)
    (hrun : run (total (serveConnection iter)) .empty conns = .ok (db, before ++ e :: after))
    (hid : requestor e.input = some id) :
    sentBy e = some (if Overflows (namesOf before) id.toNat then .error .outOfBounds
      else .ok (serialize (usersResponse iter e.before id))) := by
  have hinputs := log_map_input hrun
  rw [List.map_append] at hinputs
  have hle : (namesOf before).length ≤ 2 ^ 32 := by
    rw [← hinputs, List.filterMap_append, List.length_append] at hnames
    rw [namesOf]
    omega
  obtain ⟨db', hstep⟩ := step_of_mem_log hrun (List.mem_append_right before List.mem_cons_self)
  exact serveConnection_users (named_of_run hle (run_of_log_eq hrun)) hle hid
    (total_eq_ok.mp hstep)

/-- **Who is answered depends on the names alone.** In every run of connections with at most
`2 ^ 32` names a Users request is answered in full, unless its list is too long for the
names registered before it; then the bytes behind the buffer are read. -/
theorem users_of_run (hnames : (conns.filterMap connectionName).length ≤ 2 ^ 32)
    (hrun : run (total (serveConnection iter)) .empty conns = .ok (db, before ++ e :: after))
    (hid : requestor e.input = some id) :
    (Overflows (namesOf before) id.toNat ∧ sentBy e = some (.error .outOfBounds)) ∨
      (¬Overflows (namesOf before) id.toNat ∧
        sentBy e = some (.ok (serialize (usersResponse iter e.before id)))) := by
  rw [sentBy_of_run hnames hrun hid]
  split_ifs with hover
  · exact .inl ⟨hover, rfl⟩
  · exact .inr ⟨hover, rfl⟩

/-- The first user asks before and after the second has registered. -/
theorem users_of_run_two_users :
    let conns : List (List Recv) := [[.data (serialize (App.requestPacket (.register [65])))],
      [.data (serialize (App.requestPacket (.register [66])))],
      [.data (serialize (App.requestPacket (.users 0)))]]
    ∃ db before e, run (total (serveConnection (.ascending _ _))) .empty conns
        = .ok (db, before ++ e :: []) ∧ namesOf before = [[65], [66]] ∧
      ((Overflows (namesOf before) 0 ∧ sentBy e = some (.error .outOfBounds)) ∨
        (¬Overflows (namesOf before) 0 ∧
          sentBy e = some (.ok (serialize (usersResponse (.ascending _ _) e.before 0))))) := by
  intro conns
  obtain ⟨db, log, hrun⟩ := exists_run_total (serveConnection (.ascending _ _)) .empty conns
  have hinputs := log_map_input hrun
  obtain ⟨e₀, log, rfl, h₀, hinputs⟩ := List.map_eq_cons_iff.mp hinputs
  obtain ⟨e₁, log, rfl, h₁, hinputs⟩ := List.map_eq_cons_iff.mp hinputs
  obtain ⟨e₂, log, rfl, h₂, hinputs⟩ := List.map_eq_cons_iff.mp hinputs
  obtain rfl := List.map_eq_nil_iff.mp hinputs
  have hnames : (conns.filterMap connectionName).length ≤ 2 ^ 32 := by decide +kernel
  have hbefore : namesOf [e₀, e₁] = [[65], [66]] := by
    rw [namesOf, List.map_cons, List.map_cons, List.map_nil, h₀, h₁]
    decide +kernel
  have hid : requestor e₂.input = some 0 := by
    rw [h₂]
    decide +kernel
  have hsplit : run (total (serveConnection (.ascending _ _))) .empty conns
      = .ok (db, [e₀, e₁] ++ e₂ :: []) := hrun
  exact ⟨db, [e₀, e₁], e₂, hrun, hbefore, users_of_run hnames hsplit hid⟩

/-- **A user who is not answered never will be.** Once the list is too long for a user, or 165
users have registered and he is one of them, none of his Users requests is answered any more,
whatever comes over the connections. -/
theorem silent_of_run (hnames : (conns.filterMap connectionName).length ≤ 2 ^ 32)
    (hrun : run (total (serveConnection iter)) .empty conns = .ok (db, before ++ e :: after))
    (hsilent : (requestor e.input = some id ∧ sentBy e = some (.error .outOfBounds)) ∨
      (165 ≤ (namesOf before).length ∧ id.toNat < (namesOf before).length))
    {e' : Entry Database (List Recv) (Option Handled)} (he' : e' ∈ e :: after)
    (hid' : requestor e'.input = some id) : sentBy e' = some (.error .outOfBounds) := by
  have hover : Overflows (namesOf before) id.toNat := by
    rcases hsilent with ⟨hid, hsent⟩ | ⟨hlen, hlt⟩
    · rw [sentBy_of_run hnames hrun hid, Option.some.injEq] at hsent
      by_contra hnot
      rw [if_neg hnot] at hsent
      cases hsent
    · exact overflows_of_length hlen hlt
  obtain ⟨between, rest, hsplit⟩ := List.append_of_mem he'
  rw [hsplit, ← List.append_assoc] at hrun
  have hover' : Overflows (namesOf (before ++ between)) id.toNat := by
    rw [namesOf, List.map_append, List.filterMap_append]
    exact hover.append _
  rw [sentBy_of_run hnames hrun hid', if_pos hover']

/-- The third user is not answered because of the long names of the first two. -/
theorem silent_of_run_long_names :
    let conns : List (List Recv) :=
      [[.data (serialize (App.requestPacket (.register (List.replicate 600 65))))],
        [.data (serialize (App.requestPacket (.register (List.replicate 600 66))))],
        [.data (serialize (App.requestPacket (.register [67])))],
        [.data (serialize (App.requestPacket (.users 2)))],
        [.data (serialize (App.requestPacket (.users 2)))]]
    ∃ db before e e', run (total (serveConnection (.ascending _ _))) .empty conns
        = .ok (db, before ++ e :: [e']) ∧ sentBy e = some (.error .outOfBounds) ∧
      sentBy e' = some (.error .outOfBounds) := by
  intro conns
  obtain ⟨db, log, hrun⟩ := exists_run_total (serveConnection (.ascending _ _)) .empty conns
  have hinputs := log_map_input hrun
  obtain ⟨e₀, log, rfl, h₀, hinputs⟩ := List.map_eq_cons_iff.mp hinputs
  obtain ⟨e₁, log, rfl, h₁, hinputs⟩ := List.map_eq_cons_iff.mp hinputs
  obtain ⟨e₂, log, rfl, h₂, hinputs⟩ := List.map_eq_cons_iff.mp hinputs
  obtain ⟨e₃, log, rfl, h₃, hinputs⟩ := List.map_eq_cons_iff.mp hinputs
  obtain ⟨e₄, log, rfl, h₄, hinputs⟩ := List.map_eq_cons_iff.mp hinputs
  obtain rfl := List.map_eq_nil_iff.mp hinputs
  have hsplit : run (total (serveConnection (.ascending _ _))) .empty conns
      = .ok (db, [e₀, e₁, e₂] ++ e₃ :: [e₄]) := hrun
  have hnames : (conns.filterMap connectionName).length ≤ 2 ^ 32 := by decide +kernel
  have hid : requestor e₃.input = some 2 := by
    rw [h₃]
    decide +kernel
  have hid' : requestor e₄.input = some 2 := by
    rw [h₄]
    decide +kernel
  have hover : Overflows (namesOf [e₀, e₁, e₂]) 2 := by
    rw [namesOf, List.map_cons, List.map_cons, List.map_cons, List.map_nil, h₀, h₁, h₂]
    decide +kernel
  have hsent : sentBy e₃ = some (.error .outOfBounds) := by
    rw [sentBy_of_run hnames hsplit hid]
    exact congrArg some (if_pos hover)
  exact ⟨db, [e₀, e₁, e₂], e₃, e₄, hrun, hsent, silent_of_run hnames hsplit (.inl ⟨hid, hsent⟩)
    (List.mem_cons_of_mem e₃ (List.mem_singleton.mpr rfl)) hid'⟩

end ServerApp

end ChatApp
