import ChatApp.Client.App
import ChatApp.Server.ServerApp
import ChatApp.Tcp.Stream

set_option autoImplicit false

/-! # A peer that closes the connection

`recv` returns 0 when the other end has closed, and from then on. `receiveNb` passes the 0 on,
and gives 0 as well for a call that would block. The loops around it cannot tell the two
apart: to all of them a closed connection is one on which nothing has arrived yet, and they go
on asking.

So a call after the close changes nothing (`receiveLoop_append_closed`,
`Receiving.loop_append_closed`), and a loop ends after the close only if it would have ended
before it.
-/

namespace ChatApp

open Lib

/-! ## `receiveB` -/

/-- What `receiveNb` returns. -/
def Call.result (r : Call Bytes) : Int := nonBlocking (r.map List.length)

/-- The loop of `receiveB`, given what the calls of `recv` come back with: what it returns and
the memory, once it does. -/
def Receiving.loop : Receiving → List (Call Bytes) → Option (Bool × Bytes)
  | c, [] => if c.currCount < c.target then none else some (true, c.buf)
  | c, r :: rs =>
      if c.currCount < c.target then
        match c.round r with
        | (c, true) => c.loop rs
        | (c, false) => some (false, c.buf)
      else some (true, c.buf)

def receiveB (pData : Bytes) (targetCount : Nat) (calls : List (Call Bytes)) :
    Option (Bool × Bytes) :=
  (⟨pData, targetCount, 0⟩ : Receiving).loop calls

/-- What arrives in the calls. -/
def arrivedBytes (calls : List (Call Bytes)) : Bytes := calls.flatMap fun r => r.ret.getD []

/-- `recv` on a connection that the peer has closed. `errno` is not looked at. -/
def Call.closed : Call Bytes := ⟨some [], false⟩

/-! ## Ending after the close -/

/-- A receiving loop ends after finitely many calls on the closed connection, with an outcome
as it should be. -/
def EndsOnceClosed {ρ β : Type} (closed : ρ) (loop : List ρ → Option β) (p : β → Prop)
    (calls : List ρ) : Prop :=
  ∃ n out, loop (calls ++ List.replicate n closed) = some out ∧ p out

/-- A loop for which a call on the closed connection is idle ends as it did before the close. -/
theorem endsOnceClosed_iff_of_idle {ρ β : Type} {closed : ρ} {loop : List ρ → Option β}
    {p : β → Prop} {calls : List ρ}
    (hidle : ∀ n, loop (calls ++ List.replicate n closed) = loop calls) :
    EndsOnceClosed closed loop p calls ↔ ∃ out, loop calls = some out ∧ p out := by
  unfold EndsOnceClosed
  constructor
  · rintro ⟨n, out, hloop, hout⟩
    rw [hidle n] at hloop
    exact ⟨out, hloop, hout⟩
  · rintro ⟨out, hloop, hout⟩
    refine ⟨0, out, ?_, hout⟩
    rw [hidle 0]
    exact hloop

/-! ## The wait for a packet -/

/-- A call that brought a byte, or an error. -/
def Recv.Wakes : Recv → Prop
  | .data bs => bs ≠ []
  | .wouldBlock => False
  | .closed => False
  | .error => True

theorem receiveLoop_append_closed (pData : Bytes) (size : Nat) (recvs : List Recv) (n : Nat) :
    receiveLoop pData size (recvs ++ List.replicate n .closed) = receiveLoop pData size recvs := by
  induction recvs generalizing pData with
  | nil =>
      induction n with
      | zero => rfl
      | succ n ih =>
          -- The zero of the closed connection sends the loop round once more.
          show receiveLoop pData size (List.replicate n .closed) = none
          exact ih
  | cons r rs ih =>
      rw [List.cons_append, receiveLoop, receiveLoop]
      simp only [ih]

/-- The loop ends if and only if something wakes it. -/
theorem arrived_isSome_iff {size : Nat} (hsize : 0 < size) (recvs : List Recv) :
    (arrived size recvs).isSome ↔ ∃ r ∈ recvs, r.Wakes := by
  have htake (bs : Bytes) : bs.take size = [] ↔ bs = [] := by
    rw [List.take_eq_nil_iff]
    constructor
    · rintro (h | h)
      · omega
      · exact h
    · exact Or.inr
  induction recvs with
  | nil => simp [arrived]
  | cons r rs ih =>
      rw [List.exists_mem_cons_iff]
      apply Iff.trans ?_ (or_congr Iff.rfl ih)
      cases r with
      | data bs =>
          show _ ↔ bs ≠ [] ∨ _
          rw [arrived]
          -- No data is what a closed connection gives as well: the loop goes on.
          by_cases hnil : bs = []
          · rw [if_pos ((htake bs).mpr hnil)]
            simp [hnil]
          · rw [if_neg ((htake bs).not.mpr hnil)]
            simp [hnil]
      | wouldBlock => simp [arrived, Recv.Wakes]
      | closed => simp [arrived, Recv.Wakes]
      | error => simp [arrived, Recv.Wakes]

/-- **The wait for a packet**, whatever is made of the buffer afterwards. -/
theorem endsOnceClosed_receiveLoop_iff {β : Type} {loop : List Recv → Option β} {pData : Bytes}
    {size : Nat} (hsize : 0 < size) {f : Bytes → β}
    (hloop : ∀ recvs, loop recvs = (receiveLoop pData size recvs).map f) (recvs : List Recv) :
    EndsOnceClosed .closed loop (fun _ => True) recvs ↔ ∃ r ∈ recvs, r.Wakes := by
  have hidle : ∀ n, loop (recvs ++ List.replicate n .closed) = loop recvs := by
    intro n
    rw [hloop, hloop, receiveLoop_append_closed]
  rw [endsOnceClosed_iff_of_idle hidle, ← arrived_isSome_iff hsize, hloop, receiveLoop_eq,
    Option.isSome_iff_exists]
  simp

/-! ## The rounds of `receiveB` -/

/-- `receiveNb` never returns more than has arrived. -/
theorem Call.result_le (r : Call Bytes) : r.result ≤ (r.ret.getD []).length := by
  have hint (n : Nat) : toInt32 n ≤ n := by
    unfold toInt32
    rw [Int.bmod_def]
    split_ifs <;> omega
  rcases r with ⟨ret, again⟩
  cases ret with
  | none =>
      show nonBlocking ⟨none, again⟩ ≤ 0
      cases again <;> decide
  | some bs =>
      show nonBlocking ⟨some bs.length, again⟩ ≤ bs.length
      have hle := hint bs.length
      unfold nonBlocking
      dsimp only
      split_ifs <;> omega

theorem Receiving.round_of_neg {c : Receiving} {r : Call Bytes} (h : r.result < 0) :
    c.round r = (⟨c.store (r.ret.getD []), c.target, c.currCount⟩, false) := by
  unfold Receiving.round
  exact if_pos h

theorem Receiving.round_of_nonneg {c : Receiving} {r : Call Bytes} (h : ¬r.result < 0) :
    c.round r
      = (⟨c.store (r.ret.getD []), c.target, c.currCount + r.result.toNat⟩, true) := by
  unfold Receiving.round
  exact if_neg h

/-- A call on the closed connection stores nothing and counts nothing. -/
theorem Receiving.round_closed (c : Receiving) : c.round .closed = (c, true) := by
  have hzero : Call.closed.result = 0 := by decide
  have hstore : c.store [] = c.buf := by
    unfold Receiving.store
    simp
  rw [round_of_nonneg (by omega), hzero]
  show ((⟨c.store [], c.target, c.currCount⟩ : Receiving), true) = (c, true)
  rw [hstore]

theorem Receiving.loop_append_closed (c : Receiving) (calls : List (Call Bytes)) (n : Nat) :
    c.loop (calls ++ List.replicate n .closed) = c.loop calls := by
  induction calls generalizing c with
  | nil =>
      induction n with
      | zero => rfl
      | succ n ih =>
          show c.loop (.closed :: List.replicate n .closed) = c.loop []
          by_cases hmore : c.currCount < c.target
          · -- The loop goes round with what it had.
            rw [Receiving.loop.eq_2, if_pos hmore, round_closed]
            exact ih
          · rw [Receiving.loop.eq_2, Receiving.loop.eq_1, if_neg hmore, if_neg hmore]
  | cons r rs ih =>
      rw [List.cons_append, Receiving.loop, Receiving.loop]
      by_cases hneg : r.result < 0
      · rw [round_of_neg hneg]
      · rw [round_of_nonneg hneg]
        simp only [ih]

/-- The loop ends if and only if a call fails, or what the calls return fills the buffer. -/
theorem Receiving.loop_isSome_iff (c : Receiving) (calls : List (Call Bytes)) :
    (c.loop calls).isSome ↔
      (∃ r ∈ calls, r.result < 0) ∨
        (c.target : Int) ≤ c.currCount + (calls.map Call.result).sum := by
  induction calls generalizing c with
  | nil =>
      rw [Receiving.loop]
      by_cases hmore : c.currCount < c.target
      · rw [if_pos hmore]
        simp
        omega
      · rw [if_neg hmore]
        simp
        omega
  | cons r rs ih =>
      rw [Receiving.loop]
      by_cases hmore : c.currCount < c.target
      · rw [if_pos hmore]
        by_cases hneg : r.result < 0
        · rw [round_of_neg hneg]
          simp [hneg]
        · rw [round_of_nonneg hneg]
          have hsum : ((c.currCount + r.result.toNat : Nat) : Int) + (rs.map Call.result).sum
              = c.currCount + ((r :: rs).map Call.result).sum := by
            rw [List.map_cons, List.sum_cons]
            omega
          show (Receiving.loop _ rs).isSome ↔ _
          rw [ih]
          show (_ ∨ (c.target : Int) ≤ ((c.currCount + r.result.toNat : Nat) : Int) + _) ↔ _
          rw [hsum, List.exists_mem_cons_iff]
          simp only [hneg, false_or]
      · -- The loop has already been left; the calls that do not fail add to the sum.
        rw [if_neg hmore]
        simp only [Option.isSome_some, true_iff]
        by_cases hfail : ∃ r' ∈ r :: rs, r'.result < 0
        · exact Or.inl hfail
        · right
          have hsum : 0 ≤ ((r :: rs).map Call.result).sum := by
            apply List.sum_nonneg
            intro v hv
            rcases List.mem_map.mp hv with ⟨r', hr', rfl⟩
            by_contra hlt
            exact hfail ⟨r', hr', by omega⟩
          omega

/-- A call that returns true has received as many bytes as it was asked for. -/
theorem Receiving.target_le_of_loop {c : Receiving} {calls : List (Call Bytes)}
    {out : Bool × Bytes} (h : c.loop calls = some out) (hok : out.1 = true) :
    c.target ≤ c.currCount + (arrivedBytes calls).length := by
  induction calls generalizing c with
  | nil =>
      rw [Receiving.loop] at h
      split_ifs at h with hmore
      show c.target ≤ c.currCount + 0
      omega
  | cons r rs ih =>
      have hbytes : (arrivedBytes (r :: rs)).length
          = (r.ret.getD []).length + (arrivedBytes rs).length := by
        unfold arrivedBytes
        rw [List.flatMap_cons, List.length_append]
      rw [Receiving.loop] at h
      split_ifs at h with hmore
      · by_cases hneg : r.result < 0
        · rw [round_of_neg hneg] at h
          cases h
          cases hok
        · rw [round_of_nonneg hneg] at h
          have hrest := ih h
          have hle := r.result_le
          simp only at hrest
          omega
      · omega

/-- **`receiveB`**: it ends, with false if too little has arrived, if and only if a call fails or
what the calls return fills the buffer. -/
theorem endsOnceClosed_receiveB_iff (pData : Bytes) (targetCount : Nat)
    (calls : List (Call Bytes)) :
    EndsOnceClosed .closed (receiveB pData targetCount)
        (fun out => (arrivedBytes calls).length < targetCount → out.1 = false) calls ↔
      (∃ r ∈ calls, r.result < 0) ∨ (targetCount : Int) ≤ (calls.map Call.result).sum := by
  -- A closed call brings nothing, so waiting for more of them changes nothing.
  have hidle : ∀ n, receiveB pData targetCount (calls ++ List.replicate n .closed)
      = receiveB pData targetCount calls := by
    intro n
    exact Receiving.loop_append_closed _ _ _
  rw [endsOnceClosed_iff_of_idle hidle]
  have hends := (⟨pData, targetCount, 0⟩ : Receiving).loop_isSome_iff calls
  simp only [Nat.cast_zero, zero_add] at hends
  rw [← hends, Option.isSome_iff_exists]
  constructor
  · rintro ⟨out, hloop, -⟩
    exact ⟨out, hloop⟩
  · rintro ⟨out, hloop⟩
    refine ⟨out, hloop, ?_⟩
    -- To return true it would have to have received as much as it was asked for.
    intro hfew
    by_contra htrue
    have hle := Receiving.target_le_of_loop hloop (by simpa using htrue)
    simp only at hle
    omega

/-! ## All the loops -/

/-- **When the receiving loops end after the peer has closed**: a transfer if a call fails or
its memory is filled, the wait of the server and the four waits of the client if a byte or an
error arrives before the close. -/
theorem endsOnceClosed_iff (pData : Bytes) (targetCount : Nat) (calls : List (Call Bytes))
    (iter : Traversal UserId UserMetadata) (db : Database) (iter' : Traversal Bytes UserId)
    (app : App) (username targetUser msg rxBuffer txBuffer : Bytes) (recvs : List Recv) :
    (EndsOnceClosed .closed (receiveB pData targetCount)
        (fun out => (arrivedBytes calls).length < targetCount → out.1 = false) calls ↔
      (∃ r ∈ calls, r.result < 0) ∨ (targetCount : Int) ≤ (calls.map Call.result).sum) ∧
    (EndsOnceClosed .closed (ServerApp.handleRequest iter db) (fun _ => True) recvs ↔
      ∃ r ∈ recvs, r.Wakes) ∧
    (EndsOnceClosed .closed (fun recvs => (app.registerUser username recvs).2) (fun _ => True)
        recvs ↔ ∃ r ∈ recvs, r.Wakes) ∧
    (EndsOnceClosed .closed
        (fun recvs => (app.roundOnlineUsers iter' rxBuffer txBuffer recvs).2) (fun _ => True)
        recvs ↔ ∃ r ∈ recvs, r.Wakes) ∧
    (EndsOnceClosed .closed
        (fun recvs => (app.roundChat targetUser msg rxBuffer txBuffer recvs).2.2) (fun _ => True)
        recvs ↔ ∃ r ∈ recvs, r.Wakes) ∧
    (EndsOnceClosed .closed
        (fun recvs => (app.roundMessages rxBuffer txBuffer recvs).2) (fun _ => True)
        recvs ↔ ∃ r ∈ recvs, r.Wakes) := by
  have hserver : 0 < ServerApp.bufferSize := by decide
  have hclient : 0 < App.bufferSize := by decide
  refine ⟨endsOnceClosed_receiveB_iff pData targetCount calls, ?_, ?_, ?_, ?_, ?_⟩
  · apply endsOnceClosed_receiveLoop_iff hserver
    intro recvs
    exact (Option.map_eq_bind ..).symm
  all_goals
    apply endsOnceClosed_receiveLoop_iff hclient
    intro recvs
    show Option.map _ (Option.bind _ _) = _
    rw [Option.map_bind]
    exact (Option.map_eq_bind ..).symm

/-- A client that connects and closes without sending, and a `receiveB` of one byte from a peer
that closes at once: neither ends. -/
theorem not_endsOnceClosed_nothing_sent :
    ¬EndsOnceClosed .closed (ServerApp.handleRequest (.ascending _ _) .empty)
        (fun _ => True) [] ∧
      ¬EndsOnceClosed .closed (receiveB [0] 1)
        (fun out => (arrivedBytes []).length < 1 → out.1 = false) [] := by
  constructor
  · rintro ⟨n, out, hloop, -⟩
    have hspins : receiveLoop (List.replicate ServerApp.bufferSize 0) ServerApp.bufferSize
        ([] ++ List.replicate n .closed) = none := receiveLoop_append_closed _ _ [] n
    rw [ServerApp.handleRequest] at hloop
    simp only [hspins] at hloop
    cases hloop
  · rw [endsOnceClosed_receiveB_iff]
    simp

end ChatApp
