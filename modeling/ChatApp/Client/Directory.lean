import ChatApp.Client.App

set_option autoImplicit false

/-! # The directory of an application

`name_to_id_` is replaced by what a positive response to the poll lists, and `id_to_name_` is
built from it with `emplace`, which keeps the first name of an id. A chat reads `name_to_id_`
through the subscript. Here is what each of these does to the maps, for any response.
-/

namespace ChatApp

open Lib

/-! ## The maps -/

/-- Each of the two maps is the inverse of the other. -/
def App.Mirrored (app : App) : Prop :=
  ∀ (id : UserId) (name : Bytes), app.idToName[id]? = some name ↔ app.nameToId[name]? = some id

/-- The name is in the directory. -/
def App.Knows (app : App) (name : Bytes) : Prop := ∃ id, app.nameToId[name]? = some id

theorem App.getElem?_emplace (m : UnorderedMap UserId Bytes) (mapping : Bytes × UserId)
    (id : UserId) :
    (App.emplace m mapping)[id]?
      = (m[id]?).or (if mapping.2 = id then some mapping.1 else none) := by
  unfold App.emplace
  by_cases hid : mapping.2 = id
  · rw [hid, if_pos rfl]
    cases hm : m[id]? with
    | some name =>
        rw [Option.isSome_some, if_pos rfl, hm]
        rfl
    | none =>
        rw [Option.isSome_none, if_neg Bool.false_ne_true, UnorderedMap.getElem?_insert_same]
        rfl
  · rw [if_neg hid, Option.or_none]
    split_ifs
    · rfl
    · exact UnorderedMap.getElem?_insert_of_ne _ _ hid

/-- An id keeps the first name it is entered under. -/
theorem App.getElem?_foldl_emplace (l : List (Bytes × UserId)) (m : UnorderedMap UserId Bytes)
    (id : UserId) :
    (l.foldl App.emplace m)[id]?
      = (m[id]?).or ((l.find? (fun mapping => mapping.2 = id)).map Prod.fst) := by
  induction l generalizing m with
  | nil => simp
  | cons mapping l ih =>
      rw [List.foldl_cons, ih, App.getElem?_emplace, Option.or_assoc, List.find?_cons]
      by_cases hid : mapping.2 = id
      · simp [hid]
      · simp [hid]

/-- **Building the one map from the other loses nothing** if no id has two names. -/
theorem App.mirrored_of_foldl_emplace (iter : Traversal Bytes UserId) {app : App}
    (hidToName : app.idToName = (iter.order app.nameToId).foldl App.emplace ∅)
    (hinj : ∀ (name name' : Bytes) (id : UserId), app.nameToId[name]? = some id →
      app.nameToId[name']? = some id → name = name') : app.Mirrored := by
  intro id name
  -- An id is mapped to the first name found under it, and by `hinj` there is only one.
  have hlookup : app.idToName[id]?
      = ((iter.order app.nameToId).find? (fun mapping => mapping.2 = id)).map Prod.fst := by
    rw [hidToName, App.getElem?_foldl_emplace]
    simp
  rw [hlookup, ← iter.mem_order_iff]
  constructor
  · intro h
    rcases Option.map_eq_some_iff.mp h with ⟨⟨name', id'⟩, hfind, hname⟩
    have hid : id' = id := by simpa using List.find?_some hfind
    have hmem := List.mem_of_find?_eq_some hfind
    rw [hid] at hmem
    cases hname
    exact hmem
  · intro hmem
    cases hfind : (iter.order app.nameToId).find? (fun mapping => mapping.2 = id) with
    | none =>
        have hnone := List.find?_eq_none.mp hfind (name, id) hmem
        simp at hnone
    | some mapping =>
        rcases mapping with ⟨name', id'⟩
        have hid : id' = id := by simpa using List.find?_some hfind
        have hmem' := List.mem_of_find?_eq_some hfind
        rw [hid] at hmem'
        have hname := hinj name' name id ((iter.mem_order_iff _ _ _).mp hmem')
          ((iter.mem_order_iff _ _ _).mp hmem)
        rw [Option.map_some, hname]

/-! ## What a response lists -/

/-- The response has the user in its list. -/
def Lists (respPacket : Mcc.Packet) (name : Bytes) (id : UserId) : Prop :=
  ∃ user ∈ (respPacket.respUsers.getD {}).onlineUsers,
    user.username.getD [] = name ∧ user.userId.getD 0 = id

/-- The response is positive, or has no value. -/
def Positive (respPacket : Mcc.Packet) : Prop :=
  ((respPacket.respUsers.getD {}).respValue).getD 0 = 0

theorem lists_of_newNameToId {respPacket : Mcc.Packet} {name : Bytes} {id : UserId}
    (h : (App.newNameToId respPacket)[name]? = some id) : Lists respPacket name id := by
  rcases UnorderedMap.getElem?_foldl_insert (fun user : Mcc.OnlineUser => user.username.getD [])
    (fun user => user.userId.getD 0) h with hempty | hlisted
  · simp at hempty
  · exact hlisted

theorem newNameToId_of_lists {respPacket : Mcc.Packet} {name : Bytes} {id : UserId}
    (h : Lists respPacket name id) : ∃ id', (App.newNameToId respPacket)[name]? = some id' := by
  rcases h with ⟨user, huser, hname, -⟩
  rw [← UnorderedMap.mem_iff_getElem?]
  exact (UnorderedMap.mem_foldl_insert (fun user : Mcc.OnlineUser => user.username.getD [])
    (fun user => user.userId.getD 0)).mpr (.inr ⟨user, huser, hname⟩)

/-! ## What the threads do to the maps -/

/-- A negative response, or one that lists what is known, changes nothing. -/
theorem App.updateOnlineUsers_of_same (iter : Traversal Bytes UserId) {app : App}
    {respPacket : Mcc.Packet} (h : ¬Positive respPacket ∨ newNameToId respPacket = app.nameToId) :
    (app.updateOnlineUsers iter respPacket).1 = app := by
  simp only [App.updateOnlineUsers]
  split_ifs with hnegative hsame hsize
  · rfl
  · rfl
  · exact absurd h (not_or.mpr ⟨not_not.mpr (not_not.mp hnegative), hsame⟩)
  · exact absurd h (not_or.mpr ⟨not_not.mpr (not_not.mp hnegative), hsame⟩)

/-- Any other positive response replaces the two maps. -/
theorem App.updateOnlineUsers_of_new (iter : Traversal Bytes UserId) {app : App}
    {respPacket : Mcc.Packet} (hpositive : Positive respPacket)
    (hnew : newNameToId respPacket ≠ app.nameToId) :
    (app.updateOnlineUsers iter respPacket).1
      = { app with
          nameToId := newNameToId respPacket
          idToName := (iter.order (newNameToId respPacket)).foldl emplace ∅ } := by
  have hvalue : ¬((respPacket.respUsers.getD {}).respValue).getD 0 ≠ 0 := not_not.mpr hpositive
  simp only [App.updateOnlineUsers]
  rw [if_neg hvalue, if_neg hnew]
  split_ifs <;> rfl

/-- What the poll makes of the application: nothing, or the two maps of a positive response. -/
theorem App.updateOnlineUsers_cases (iter : Traversal Bytes UserId) (app : App)
    (respPacket : Mcc.Packet) :
    (app.updateOnlineUsers iter respPacket).1 = app ∨
      Positive respPacket ∧
        (app.updateOnlineUsers iter respPacket).1
          = { app with
              nameToId := newNameToId respPacket
              idToName := (iter.order (newNameToId respPacket)).foldl emplace ∅ } := by
  by_cases hpositive : Positive respPacket
  · by_cases hsame : newNameToId respPacket = app.nameToId
    · exact .inl (updateOnlineUsers_of_same iter (.inr hsame))
    · exact .inr ⟨hpositive, updateOnlineUsers_of_new iter hpositive hsame⟩
  · exact .inl (updateOnlineUsers_of_same iter (.inl hpositive))

theorem App.id_updateOnlineUsers (iter : Traversal Bytes UserId) (app : App)
    (respPacket : Mcc.Packet) : (app.updateOnlineUsers iter respPacket).1.id = app.id := by
  rcases App.updateOnlineUsers_cases iter app respPacket with h | ⟨-, h⟩ <;> rw [h]

/-- A line to a name in the directory changes nothing. -/
theorem App.chatRequest_of_knows {app : App} {targetUser : Bytes} (h : app.Knows targetUser)
    (msg : Bytes) : (app.chatRequest targetUser msg).2 = app := by
  rcases h with ⟨id, hid⟩
  show { app with nameToId := app.nameToId.insert targetUser (app.nameToId[targetUser]?.getD 0) }
    = app
  rw [hid, Option.getD_some, UnorderedMap.insert_of_getElem? _ hid]

/-- What a line makes of the map: nothing if the name is in it, else one more entry. -/
theorem App.chatRequest_nameToId (app : App) (targetUser msg : Bytes) :
    (app.chatRequest targetUser msg).2.nameToId
      = app.nameToId.insert targetUser (app.nameToId[targetUser]?.getD 0) := rfl

/-- The id a line is addressed to. -/
theorem App.chatRequest_targetId (app : App) (targetUser msg : Bytes) :
    (app.chatRequest targetUser msg).1.reqSend.bind (·.targetId)
      = some (app.nameToId[targetUser]?.getD 0) := by
  show some (((app.chatRequest targetUser msg).2.nameToId)[targetUser]?.getD 0) = _
  rw [App.chatRequest_nameToId, UnorderedMap.getElem?_insert_same, Option.getD_some]

end ChatApp
