import ChatApp.Protobuf.Directories
import ChatApp.Protobuf.Polls

set_option autoImplicit false

/-! # Whose messages can be named

`id_to_name_` is built from `name_to_id_`, which has one entry for each name read. So of
several users who share a name the poll keeps the one listed last, and messages from the
others come from an "Unknown sender"; and so do those of users who are listed behind a name
that is not UTF-8, where the parse stops (`namesEveryone_iff`). Nothing else is lost: an id has
one name, so turning the map around is harmless (`mirrored_usersRead`).
-/

namespace ChatApp

open Lib Lib.Wire Lib.Wire.Message

/-- The users other than `id` have names of their own. -/
def Database.OthersDistinct (db : Database) (id : UserId) : Prop :=
  ∀ k k' name, k ≠ id → k' ≠ id → db.nameOf k = some name → db.nameOf k' = some name → k = k'

namespace App

/-- `id_to_name_` has the users other than the application's own, and nobody else. -/
def HasNames (app : App) (db : Database) : Prop :=
  ∀ id name, app.idToName[id]? = some name ↔ db.nameOf id = some name ∧ id ≠ app.id

/-- `id_to_name_` has every other user, and a message from any of them is shown with the
sender's name. -/
structure NamesEveryone (app : App) (db : Database) : Prop where
  lookup : app.HasNames db
  label : ∀ id name, db.nameOf id = some name → id ≠ app.id → ∀ msg : Bytes,
    app.messageLine { userId := some id, message := some msg } = name ++ text "> " ++ msg

/-- A message is shown with the name under the sender's id. -/
theorem namesEveryone_of_hasNames {app : App} {db : Database} (h : app.HasNames db) :
    app.NamesEveryone db := by
  refine ⟨h, ?_⟩
  intro id name hname hne msg
  have hlookup : app.idToName[id]? = some name := (h id name).mpr ⟨hname, hne⟩
  rw [messageLine, Option.getD_some, hlookup]
  rfl

/-- A round of the poll with the server, the request and the response in one piece each: the
database and the application after it. -/
def pollServer (iter : Traversal UserId UserMetadata) (iter' : Traversal Bytes UserId)
    (db : Database) (app : App) (rxBuffer txBuffer : Bytes) : Except Unit (Database × App) := do
  let (db, response) ←
    ServerApp.deliver iter db (app.roundOnlineUsers iter' rxBuffer txBuffer []).1.1
  match (app.roundOnlineUsers iter' rxBuffer txBuffer [.data response]).2 with
  | some (_, app, _, _) => return (db, app)
  | none => .error ()

/-- The id a list has a name with: that of the last user of the name. -/
def lastNamed (l : List (UserId × UserMetadata)) (name : Bytes) : Option UserId :=
  (l.reverse.find? (fun it => it.2.username = name)).map Prod.fst

section Response

open ServerApp

variable (iter : Traversal UserId UserMetadata) {db : Database} {id : UserId}
  (hex : db.userExists id = true)
include hex

/-- The map that a response is made into is the one the application has if it has the names read,
each with its last id. -/
theorem newNameToId_usersRead_eq_iff (app : App) :
    newNameToId (usersRead iter db id) = app.nameToId ↔
      ∀ name, app.nameToId[name]? = lastNamed (legible (others iter db id)) name := by
  have hlast (name : Bytes) : lastListed (usersRead iter db id) name
      = lastNamed (legible (others iter db id)) name := by
    have husers : listedUsers (usersRead iter db id)
        = (legible (others iter db id)).map onlineUser := by
      simp [listedUsers, usersRead, hex]
    rw [lastListed, lastNamed, husers, ← List.map_reverse, List.find?_map, Option.map_map]
    rfl
  rw [newNameToId_eq_iff]
  exact forall_congr' fun name => by rw [hlast]

/-- **Turning the map around loses nothing**: no id is in it under two names. -/
theorem mirrored_usersRead (iter' : Traversal Bytes UserId) {app : App}
    (hnameToId : app.nameToId = newNameToId (usersRead iter db id))
    (hidToName : app.idToName = (iter'.order app.nameToId).foldl emplace ∅) : app.Mirrored := by
  refine mirrored_of_foldl_emplace iter' hidToName ?_
  intro name name' k hk hk'
  rw [hnameToId] at hk hk'
  have hname := (nameOf_of_newNameToId hex hk).1
  have hname' := (nameOf_of_newNameToId hex hk').1
  exact Option.some.inj (hname.symm.trans hname')

/-- If the map has every other user, the list was read to its end. -/
theorem legible_of_hasNames (iter' : Traversal Bytes UserId) {app : App} (hid : app.id = id)
    (hnameToId : app.nameToId = newNameToId (usersRead iter db id))
    (hidToName : app.idToName = (iter'.order app.nameToId).foldl emplace ∅)
    (hnames : app.HasNames db) : legible (others iter db id) = others iter db id := by
  have hmirrored := mirrored_usersRead iter hex iter' hnameToId hidToName
  have hsubset : others iter db id ⊆ legible (others iter db id) := by
    rintro ⟨k, u⟩ hit
    obtain ⟨hfind, hne⟩ := mem_others.mp hit
    have hname : db.nameOf k = some u.username := by rw [Database.nameOf, hfind, Option.map_some]
    have hk := (hmirrored k u.username).mp ((hnames k u.username).mpr ⟨hname, hid ▸ hne⟩)
    rw [hnameToId] at hk
    obtain ⟨⟨k', u'⟩, hit', -, rfl⟩ := (lists_usersRead hex).mp (lists_of_newNameToId hk)
    -- An id is listed once, so it is this entry that was read.
    have hfind' := (mem_others.mp ((legible_sublist _).subset hit')).1
    obtain rfl : u' = u := Option.some.inj (hfind'.symm.trans hfind)
    exact hit'
  have hnodup : (others iter db id).Nodup := List.Nodup.of_map Prod.fst (nodup_others iter db id)
  exact (legible_sublist _).eq_of_length_le (hnodup.subperm hsubset).length_le

/-- The map has every other user exactly if no two of them share a name and the list was read to
its end. -/
theorem hasNames_iff (iter' : Traversal Bytes UserId) {app : App} (hid : app.id = id)
    (hnameToId : app.nameToId = newNameToId (usersRead iter db id))
    (hidToName : app.idToName = (iter'.order app.nameToId).foldl emplace ∅) :
    app.HasNames db ↔ db.OthersDistinct id ∧
      ∀ it ∈ (others iter db id).dropLast, Utf8.valid it.2.username = true := by
  have hmirrored := mirrored_usersRead iter hex iter' hnameToId hidToName
  rw [← legible_eq_self_iff]
  constructor
  · intro hnames
    refine ⟨?_, legible_of_hasNames iter hex iter' hid hnameToId hidToName hnames⟩
    intro k k' name hne hne' hname hname'
    -- Both have an entry in the one map, so in the other the name has both ids.
    have hk := (hmirrored k name).mp ((hnames k name).mpr ⟨hname, hid ▸ hne⟩)
    have hk' := (hmirrored k' name).mp ((hnames k' name).mpr ⟨hname', hid ▸ hne'⟩)
    exact Option.some.inj (hk.symm.trans hk')
  · rintro ⟨hdistinct, hread⟩ k name
    rw [hmirrored k name, hnameToId, hid]
    constructor
    · intro hk
      exact nameOf_of_newNameToId hex hk
    · rintro ⟨hname, hne⟩
      obtain ⟨u, hfind, rfl⟩ := Option.map_eq_some_iff.mp hname
      have hit : (k, u) ∈ legible (others iter db id) := by
        rw [hread]
        exact mem_others.mpr ⟨hfind, hne⟩
      obtain ⟨k', hk'⟩ := newNameToId_of_mem_legible hex hit
      obtain ⟨hname', hne'⟩ := nameOf_of_newNameToId hex hk'
      have hk : k' = k := hdistinct k' k u.username hne' hne hname' hname
      rw [← hk]
      exact hk'

end Response

/-- What a round of the poll comes to, where the packets fit the buffers. -/
theorem pollServer_eq (iter : Traversal UserId UserMetadata) (iter' : Traversal Bytes UserId)
    {db : Database} {app : App} {rxBuffer txBuffer : Bytes}
    (hfits : byteSizeLong (ServerApp.usersResponse iter db app.id) ≤ bufferSize)
    (hrx : PollBuffer app.id db rxBuffer) (htx : txBuffer.length = bufferSize) :
    app.pollServer iter iter' db rxBuffer txBuffer
      = .ok (db, (app.updateOnlineUsers iter' (ServerApp.usersRead iter db app.id)).1) := by
  have hdeliver : ServerApp.deliver iter db (transmit (usersRequest app.id) txBuffer).1
      = .ok (db, serialize (ServerApp.usersResponse iter db app.id)) :=
    ServerApp.deliver_users htx hfits
  obtain ⟨rxBuffer', hreceive, -⟩ := hrx.receive iter hfits
  simp only [pollServer, roundOnlineUsers, hdeliver, ok_bind, hreceive, Option.map_some,
    pure_eq_ok]

/-- **After a poll every other user can be named exactly if no two of them share a name, and the
names listed before the last are UTF-8.** Where what is read of the response is what `name_to_id_`
has already, `id_to_name_` stays as it was, and has to be right before. -/
theorem namesEveryone_iff (iter : Traversal UserId UserMetadata) (iter' : Traversal Bytes UserId)
    (db : Database) (app : App) {rxBuffer txBuffer : Bytes} (hex : db.userExists app.id = true)
    (hfits : byteSizeLong (ServerApp.usersResponse iter db app.id) ≤ bufferSize)
    (hrx : PollBuffer app.id db rxBuffer) (htx : txBuffer.length = bufferSize) :
    ∃ app', app.pollServer iter iter' db rxBuffer txBuffer = .ok (db, app') ∧
      (app'.NamesEveryone db ↔
        ((∀ name, app.nameToId[name]?
            = lastNamed (ServerApp.legible (ServerApp.others iter db app.id)) name) →
          app.HasNames db) ∧
        (¬(∀ name, app.nameToId[name]?
            = lastNamed (ServerApp.legible (ServerApp.others iter db app.id)) name) →
          db.OthersDistinct app.id ∧
            ∀ it ∈ (ServerApp.others iter db app.id).dropLast,
              Utf8.valid it.2.username = true)) := by
  refine ⟨_, pollServer_eq iter iter' hfits hrx htx, ?_⟩
  have hhas (app' : App) : app'.NamesEveryone db ↔ app'.HasNames db :=
    ⟨fun h => h.lookup, namesEveryone_of_hasNames⟩
  rw [hhas, ← newNameToId_usersRead_eq_iff iter hex]
  have hpositive : Positive (ServerApp.usersRead iter db app.id) :=
    ServerApp.positive_usersRead hex
  by_cases hsame : newNameToId (ServerApp.usersRead iter db app.id) = app.nameToId
  · rw [updateOnlineUsers_of_same iter' (.inr hsame)]
    simp [hsame]
  · have hnew := updateOnlineUsers_of_new iter' hpositive hsame
    rw [hasNames_iff iter hex iter' (by rw [hnew]) (by rw [hnew]) (by rw [hnew])]
    simp [hsame]

/-- Two users of different names, after the first poll of a third. -/
theorem namesEveryone_two_names :
    let db := (((Database.empty.registerUser [65]).2.registerUser [66]).2.registerUser [67]).2
    ∃ app', App.pollServer (.ascending _ _) (.ascending _ _) db {} (List.replicate bufferSize 0)
      (List.replicate bufferSize 0) = .ok (db, app') ∧ app'.NamesEveryone db := by
  intro db
  have hnames (id : UserId) : db.nameOf id
      = if 2 = id then some [67] else if 1 = id then some [66] else if 0 = id then some [65]
        else none := by
    simp only [db, Database.nameOf_registerUser, Database.nameOf_empty]
    rfl
  obtain ⟨app', hpoll, hiff⟩ := namesEveryone_iff (.ascending _ _) (.ascending _ _) db {}
    (by decide +kernel) (by decide +kernel) (.cleared db) List.length_replicate
  refine ⟨app', hpoll, hiff.mpr ⟨fun hknown => ?_, fun _ => ⟨?_, by decide +kernel⟩⟩⟩
  · have hlisted : lastNamed (ServerApp.legible (ServerApp.others (.ascending _ _) db 0)) [66]
        = some 1 := by
      decide +kernel
    have hempty := (hknown [66]).trans hlisted
    simp at hempty
  · intro k k' name hne hne' hk hk'
    rw [hnames] at hk hk'
    rw [if_neg (Ne.symm hne)] at hk
    rw [if_neg (Ne.symm hne')] at hk'
    split_ifs at hk hk' with htwo htwo' hone' hone htwo' hone'
    · exact htwo.symm.trans htwo'
    · cases hk.trans hk'.symm
    · cases hk.trans hk'.symm
    · exact hone.symm.trans hone'

/-- Two users share a name; a message from the first of them cannot be named. -/
theorem not_namesEveryone_shared_name :
    let db := (((Database.empty.registerUser [65]).2.registerUser [66]).2.registerUser [66]).2
    Database.Reachable db ∧ db.userExists 0 = true ∧
      ∃ app, App.pollServer (.ascending _ _) (.ascending _ _) db {} (List.replicate bufferSize 0)
          (List.replicate bufferSize 0) = .ok (db, app) ∧ ¬app.NamesEveryone db ∧
        app.messageLine { userId := some 1, message := some [104, 105] }
          = text "Unknown sender > " ++ [104, 105] := by
  intro db
  have hreachable : Database.Reachable db :=
    ((Database.Reachable.empty.apply (.register [65])).apply (.register [66])).apply
      (.register [66])
  have hpoll : (App.pollServer (.ascending _ _) (.ascending _ _) db {}
      (List.replicate bufferSize 0) (List.replicate bufferSize 0)).map
        (fun out => (out.1, out.2.id, out.2.idToName[(1 : UserId)]?,
          out.2.messageLine { userId := some 1, message := some [104, 105] }))
      = .ok (db, 0, none, text "Unknown sender > " ++ [104, 105]) := by
    decide +kernel
  obtain ⟨⟨db', app⟩, hpoll, hout⟩ := map_eq_ok.mp hpoll
  simp only [Prod.mk.injEq] at hout
  obtain ⟨rfl, hid, hnone, hline⟩ := hout
  refine ⟨hreachable, by decide +kernel, app, hpoll, fun hnames => ?_, hline⟩
  have hname : db.nameOf 1 = some [66] := by
    decide +kernel
  have hsome := (hnames.lookup 1 [66]).mpr ⟨hname, by rw [hid]; decide⟩
  rw [hnone] at hsome
  cases hsome

end App

end ChatApp
