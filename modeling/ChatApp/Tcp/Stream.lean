import ChatApp.Lib.Run
import ChatApp.Tcp.Socket

set_option autoImplicit false

/-! # The blocking transfers (`Socket::sendB`, `Socket::receiveB`)

Each is a loop around one nonblocking call, and goes on behind the bytes that have been
transferred so far. A connection is a queue of bytes: `send` appends some of the bytes it is
offered, `recv` takes some of the bytes in flight, and either may report that it would block,
or an error. The calls of the two ends come back in any order (`Stream.step`).

`send` and `recv` return a `ssize_t`, which the wrappers assign to an `int`. So a count of
`2 ^ 31` bytes or more is not the number the loops add up: it is an error for them, or a
smaller number. On every run without a count of the second kind the transfer is exact
(`Stream.exact_of_run`): what has been received and is in flight is what has been accepted
(`Stream.Inv.balance`).
-/

namespace ChatApp

open Lib

/-! ## One call -/

/-- What a call comes back with: what it transferred, or `none` for `-1`, and whether `errno`
is then `EAGAIN` or `EWOULDBLOCK`. After a success `errno` is what an earlier call left. -/
structure Call (α : Type) where
  ret : Option α
  again : Bool
  deriving Repr, DecidableEq

def Call.map {α β : Type} (f : α → β) (r : Call α) : Call β := ⟨r.ret.map f, r.again⟩

/-- What `sendNb` and `receiveNb` make of it. -/
def nonBlocking (r : Call Nat) : Int :=
  let res : Int := match r.ret with
    | some n => toInt32 n
    | none => -1
  if res ≠ -1 then res else if r.again then 0 else -1

/-- Every count is one that an `int` can hold. -/
def Call.Fits (r : Call Nat) : Prop := ∀ n ∈ r.ret, n < 2 ^ 31

/-- A count that fits is returned; only an error is negative. -/
theorem nonBlocking_of_fits {r : Call Nat} (h : r.Fits) :
    nonBlocking r = match r.ret with
      | some n => (n : Int)
      | none => if r.again then 0 else -1 := by
  unfold nonBlocking
  cases hret : r.ret with
  | none => rfl
  | some n =>
      have hn : n < 2 ^ 31 := h n hret
      have hne : (n : Int) ≠ -1 := by omega
      simp only [toInt32_of_lt hn]
      rw [if_pos hne]

/-- The call behind a result of the receive loops. -/
def Recv.call (size : Nat) : Recv → Call Nat
  | .data bs => ⟨some (bs.take size).length, false⟩
  | .wouldBlock => ⟨none, true⟩
  | .closed => ⟨some 0, false⟩
  | .error => ⟨none, false⟩

/-- No count is read as a smaller one: it is one that an `int` can hold, or one that it makes
negative, and then not `-1` with an `errno` that says that the call would block. -/
def Call.Counted (r : Call Nat) : Prop :=
  ∀ n ∈ r.ret, n < 2 ^ 31 ∨ 2 ^ 31 ≤ n % 2 ^ 32 ∧ (n % 2 ^ 32 + 1 = 2 ^ 32 → r.again = false)

instance (r : Call Nat) : Decidable r.Counted :=
  match h : r.ret with
  | none => .isTrue (by simp [Call.Counted, h])
  | some n => decidable_of_iff (n < 2 ^ 31 ∨ 2 ^ 31 ≤ n % 2 ^ 32 ∧
      (n % 2 ^ 32 + 1 = 2 ^ 32 → r.again = false)) (by simp [Call.Counted, h])

/-- Then the loops add up what the call has transferred, or see an error. -/
theorem nonBlocking_of_counted {r : Call Nat} (h : r.Counted) :
    nonBlocking r = (r.ret.getD 0 : Nat) ∨ nonBlocking r < 0 := by
  unfold nonBlocking
  cases hret : r.ret with
  | none =>
      by_cases hagain : r.again = true
      · left
        simp [hagain]
      · right
        simp [hagain]
  | some n =>
      rcases h n hret with hlt | ⟨hge, hagain⟩
      · left
        have hne : (n : Int) ≠ -1 := by omega
        simp only [toInt32_of_lt hlt]
        rw [if_pos hne]
        rfl
      · right
        -- The count has the sign bit set, so the `int` it is converted to is negative.
        have hneg : toInt32 n = ((n % 2 ^ 32 : Nat) : Int) - 2 ^ 32 := by
          unfold toInt32
          rw [Int.bmod_def, if_neg (by omega)]
          omega
        simp only [hneg]
        by_cases hone : n % 2 ^ 32 + 1 = 2 ^ 32
        · simp [hagain hone]
          omega
        · rw [if_pos (by omega)]
          omega

/-- For a buffer whose size an `int` can hold, the result is the count. -/
theorem receiveNb_eq_nonBlocking (pData : Bytes) {size : Nat} (h : size < 2 ^ 31) (r : Recv) :
    (receiveNb pData size r).1 = nonBlocking (r.call size) := by
  have hfits : (r.call size).Fits := by
    intro n hn
    cases r with
    | data bs =>
        cases hn
        exact lt_of_le_of_lt (List.length_take_le size bs) h
    | wouldBlock => cases hn
    | closed =>
        cases hn
        decide
    | error => cases hn
  rw [nonBlocking_of_fits hfits]
  cases r <;> rfl

/-! ## The two loops -/

/-- A `sendB` under way: its buffer, and the number of bytes sent. What the system has
accepted from it so far is kept beside. -/
structure Sending where
  buf : Bytes
  currCount : Nat
  accepted : Bytes
  deriving Repr, DecidableEq

/-- A `receiveB` under way: the memory, the number of bytes to receive, and the number
received. -/
structure Receiving where
  buf : Bytes
  target : Nat
  currCount : Nat
  deriving Repr, DecidableEq

/-- One round of `sendB`: the state after it, and whether the loop goes on to its test. -/
def Sending.round (c : Sending) (r : Call Nat) : Sending × Bool :=
  let offered := c.buf.drop c.currCount
  let currSent := nonBlocking r
  let c := { c with accepted := c.accepted ++ offered.take (r.ret.getD 0) }
  if currSent < 0 then (c, false)
  else ({ c with currCount := c.currCount + currSent.toNat }, true)

/-- The memory after `recv` has stored its bytes at `pData + curr_count`. -/
def Receiving.store (c : Receiving) (bs : Bytes) : Bytes :=
  c.buf.take c.currCount ++ (bs ++ c.buf.drop (c.currCount + bs.length))

/-- One round of `receiveB`. -/
def Receiving.round (c : Receiving) (r : Call Bytes) : Receiving × Bool :=
  let currReceive := nonBlocking (r.map List.length)
  let c := { c with buf := c.store (r.ret.getD []) }
  if currReceive < 0 then (c, false)
  else ({ c with currCount := c.currCount + currReceive.toNat }, true)

/-! ## A connection -/

/-- A `sendB` that has returned. -/
structure Sent where
  buf : Bytes
  accepted : Bytes
  ok : Bool
  deriving Repr, DecidableEq

/-- A `receiveB` that has returned. -/
structure Received where
  buf : Bytes
  target : Nat
  ok : Bool
  deriving Repr, DecidableEq

/-- A connection and the calls at its two ends: those to come, the one under way, and those
that have returned. -/
structure Stream where
  toSend : List Bytes
  sending : Option Sending
  sends : List Sent
  inFlight : Bytes
  toReceive : List Bytes
  receiving : Option Receiving
  receives : List Received
  deriving Repr, DecidableEq

/-- What happens next: an end calls its next transfer, or a call of `send` or `recv` comes
back. -/
inductive StreamEvent
  | callSend
  | send (r : Call Nat)
  | callReceive
  | recv (r : Call Nat)
  deriving Repr, DecidableEq

namespace Stream

/-- A connection that is to carry the buffers, into memory of the sizes asked for. -/
def start (toSend toReceive : List Bytes) : Stream :=
  ⟨toSend, none, [], [], toReceive, none, []⟩

/-- The test of `sendB`'s loop. -/
def testSend (s : Stream) (c : Sending) : Stream :=
  if c.currCount < c.buf.length then { s with sending := some c }
  else { s with sending := none, sends := s.sends ++ [⟨c.buf, c.accepted, true⟩] }

/-- The test of `receiveB`'s loop. -/
def testReceive (s : Stream) (c : Receiving) : Stream :=
  if c.currCount < c.target then { s with receiving := some c }
  else { s with receiving := none, receives := s.receives ++ [⟨c.buf, c.target, true⟩] }

/-- A call transfers at least one byte, and no more than the limit. -/
def Within (limit : Nat) (r : Call Nat) : Prop := ∀ n ∈ r.ret, 1 ≤ n ∧ n ≤ limit

instance (limit : Nat) (r : Call Nat) : Decidable (Within limit r) :=
  match h : r.ret with
  | none => .isTrue (by simp [Within, h])
  | some n => decidable_of_iff (1 ≤ n ∧ n ≤ limit) (by simp [Within, h])

/-- A `send` comes back: the bytes it took are in flight. -/
def onSend (s : Stream) (c : Sending) (r : Call Nat) : Stream :=
  let s := { s with
    inFlight := s.inFlight ++ (c.buf.drop c.currCount).take (r.ret.getD 0) }
  match c.round r with
  | (c, true) => s.testSend c
  | (c, false) => { s with sending := none, sends := s.sends ++ [⟨c.buf, c.accepted, false⟩] }

/-- A `recv` comes back: the bytes it brought are the first of those in flight. -/
def onRecv (s : Stream) (c : Receiving) (r : Call Nat) : Stream :=
  let taken := r.map (fun n => s.inFlight.take n)
  let s := { s with inFlight := s.inFlight.drop (r.ret.getD 0) }
  match c.round taken with
  | (c, true) => s.testReceive c
  | (c, false) =>
      { s with receiving := none, receives := s.receives ++ [⟨c.buf, c.target, false⟩] }

/-- One step. There is none for a call that cannot be made, or cannot come back so. -/
def step (s : Stream) : StreamEvent → Except Unit (Stream × Unit)
  | .callSend =>
      match s.sending, s.toSend with
      | none, buf :: rest => return (({ s with toSend := rest }).testSend ⟨buf, 0, []⟩, ())
      | _, _ => .error ()
  | .send r =>
      match s.sending with
      | some c =>
          if Within (c.buf.length - c.currCount) r then return (s.onSend c r, ()) else .error ()
      | none => .error ()
  | .callReceive =>
      match s.receiving, s.toReceive with
      | none, buf :: rest =>
          return (({ s with toReceive := rest }).testReceive ⟨buf, buf.length, 0⟩, ())
      | _, _ => .error ()
  | .recv r =>
      match s.receiving with
      | some c =>
          if Within (min (c.target - c.currCount) s.inFlight.length) r then
            return (s.onRecv c r, ())
          else .error ()
      | none => .error ()

/-- The count of the step, if it is a call that came back, is not read as a smaller one. -/
def Counted (_ : Stream) : StreamEvent → Prop
  | .send r => r.Counted
  | .recv r => r.Counted
  | .callSend => True
  | .callReceive => True

/-- What has been accepted at the one end, in the calls that have returned and the one under
way. -/
def acceptedBytes (s : Stream) : Bytes :=
  s.sends.flatMap (·.accepted) ++ (s.sending.map (·.accepted)).getD []

/-- What has been received at the other. -/
def receivedBytes (s : Stream) : Bytes :=
  s.receives.flatMap (·.buf) ++ (s.receiving.map (fun c => c.buf.take c.currCount)).getD []

/-- The buffers that `sendB` has been called with. -/
def sentBuffers (s : Stream) : List Bytes :=
  s.sends.map (·.buf) ++ (s.sending.map (·.buf)).toList

/-- The sizes that `receiveB` has been called with. -/
def askedSizes (s : Stream) : List Nat :=
  s.receives.map (·.target) ++ (s.receiving.map (·.target)).toList

/-- **The transfer is exact.** The calls are those that were to be made. What the completed
calls of `receiveB` hold is a prefix of what `sendB` has been called with, as long as no call has
failed, and each holds as many bytes as it was asked for. A call of `sendB` returns true only
when its whole buffer has been accepted once, and false only when a prefix of it has. -/
structure Exact (bufs mems : List Bytes) (s : Stream) : Prop where
  calls : s.sentBuffers ++ s.toSend = bufs
  asked : s.askedSizes ++ s.toReceive.map List.length = mems.map List.length
  prefixOf : (∀ d ∈ s.sends, d.ok = true) → (∀ d ∈ s.receives, d.ok = true) →
    s.receives.flatMap (·.buf) <+: s.sentBuffers.flatten
  size : ∀ d ∈ s.receives, d.buf.length = d.target
  sent : ∀ d ∈ s.sends, d.ok = true → d.accepted = d.buf
  failed : ∀ d ∈ s.sends, d.ok = false → d.accepted <+: d.buf

/-! ## The invariant -/

/-- What every state of a run meets. -/
structure Inv (bufs mems : List Bytes) (s : Stream) : Prop where
  calls : s.sentBuffers ++ s.toSend = bufs
  asked : s.askedSizes ++ s.toReceive.map List.length = mems.map List.length
  sending : ∀ c ∈ s.sending, c.currCount ≤ c.buf.length ∧ c.accepted = c.buf.take c.currCount
  receiving : ∀ c ∈ s.receiving, c.currCount ≤ c.target ∧ c.buf.length = c.target
  size : ∀ d ∈ s.receives, d.buf.length = d.target
  sent : ∀ d ∈ s.sends, d.ok = true → d.accepted = d.buf
  failed : ∀ d ∈ s.sends, d.ok = false → d.accepted <+: d.buf
  /-- What has been received and what is in flight is what has been accepted. -/
  balance : (∀ d ∈ s.receives, d.ok = true) → s.receivedBytes ++ s.inFlight = s.acceptedBytes

variable {bufs mems : List Bytes} {s : Stream}

theorem Inv.start (bufs mems : List Bytes) : Inv bufs mems (start bufs mems) where
  calls := rfl
  asked := rfl
  sending := by simp [Stream.start]
  receiving := by simp [Stream.start]
  size := List.forall_mem_nil _
  sent := List.forall_mem_nil _
  failed := List.forall_mem_nil _
  balance := fun _ => rfl

/-- The test of the send loop: a call that has sent everything returns true. -/
theorem Inv.testSend {c : Sending} (h : Inv bufs mems { s with sending := some c }) :
    Inv bufs mems (s.testSend c) := by
  unfold Stream.testSend
  by_cases hmore : c.currCount < c.buf.length
  · rw [if_pos hmore]
    exact h
  · rw [if_neg hmore]
    rcases h.sending c rfl with ⟨hle, haccepted⟩
    -- The loop ends only when the count has come up to the size.
    have hall : c.accepted = c.buf := by
      rw [haccepted]
      apply List.take_of_length_le
      omega
    refine ⟨?_, h.asked, by simp, h.receiving, h.size, ?_, ?_, ?_⟩
    · have hcalls := h.calls
      simpa [sentBuffers] using hcalls
    · exact forall_mem_concat h.sent fun _ => hall
    · refine forall_mem_concat h.failed ?_
      intro hok
      cases hok
    · intro hok
      have hbalance := h.balance hok
      simpa [receivedBytes, acceptedBytes] using hbalance

/-- The test of the receive loop: a call that has received everything returns true. -/
theorem Inv.testReceive {c : Receiving} (h : Inv bufs mems { s with receiving := some c }) :
    Inv bufs mems (s.testReceive c) := by
  unfold Stream.testReceive
  by_cases hmore : c.currCount < c.target
  · rw [if_pos hmore]
    exact h
  · rw [if_neg hmore]
    rcases h.receiving c rfl with ⟨hle, hlen⟩
    -- The loop ends only when the count has come up to the target.
    have hall : c.buf.take c.currCount = c.buf := by
      apply List.take_of_length_le
      omega
    refine ⟨h.calls, ?_, h.sending, by simp, ?_, h.sent, h.failed, ?_⟩
    · have hasked := h.asked
      simpa [askedSizes] using hasked
    · exact forall_mem_concat h.size hlen
    · intro hok
      have hbefore : ∀ d ∈ s.receives, d.ok = true := by
        intro d hd
        exact hok d (List.mem_append_left _ hd)
      have hbalance := h.balance hbefore
      simpa [receivedBytes, acceptedBytes, hall] using hbalance

/-! ## The steps -/

theorem Inv.callSend {buf : Bytes} {rest : List Bytes} (h : Inv bufs mems s)
    (hidle : s.sending = none) (hnext : s.toSend = buf :: rest) :
    Inv bufs mems (({ s with toSend := rest }).testSend ⟨buf, 0, []⟩) := by
  apply Inv.testSend
  refine ⟨?_, h.asked, ?_, h.receiving, h.size, h.sent, h.failed, ?_⟩
  · have hcalls := h.calls
    simpa [sentBuffers, hidle, hnext] using hcalls
  · intro c hc
    cases hc
    exact ⟨Nat.zero_le _, rfl⟩
  · intro hok
    have hbalance := h.balance hok
    simpa [receivedBytes, acceptedBytes, hidle] using hbalance

theorem Inv.callReceive {buf : Bytes} {rest : List Bytes} (h : Inv bufs mems s)
    (hidle : s.receiving = none) (hnext : s.toReceive = buf :: rest) :
    Inv bufs mems (({ s with toReceive := rest }).testReceive ⟨buf, buf.length, 0⟩) := by
  apply Inv.testReceive
  refine ⟨h.calls, ?_, h.sending, ?_, h.size, h.sent, h.failed, ?_⟩
  · have hasked := h.asked
    simpa [askedSizes, hidle, hnext] using hasked
  · intro c hc
    cases hc
    exact ⟨Nat.zero_le _, rfl⟩
  · intro hok
    have hbalance := h.balance hok
    simpa [receivedBytes, acceptedBytes, hidle] using hbalance

theorem Within.getD_le {limit : Nat} {r : Call Nat} (h : Within limit r) :
    r.ret.getD 0 ≤ limit := by
  cases hret : r.ret with
  | none => exact Nat.zero_le _
  | some n => exact (h n hret).2

/-- A round of `sendB`: the bytes taken are the next ones. They are counted, or the call
fails. -/
theorem Sending.round_of_counted {c : Sending} {r : Call Nat} (hcounted : r.Counted) :
    let accepted := c.accepted ++ (c.buf.drop c.currCount).take (r.ret.getD 0)
    c.round r = (⟨c.buf, c.currCount + r.ret.getD 0, accepted⟩, true) ∨
      c.round r = (⟨c.buf, c.currCount, accepted⟩, false) := by
  intro accepted
  unfold Sending.round
  rcases nonBlocking_of_counted hcounted with hcount | hneg
  · left
    have hpos : ¬nonBlocking r < 0 := by omega
    simp only [if_neg hpos]
    rw [hcount, Int.toNat_natCast]
  · right
    simp only [if_pos hneg]
    rfl

theorem Inv.onSend {c : Sending} {r : Call Nat} (h : Inv bufs mems s) (hc : s.sending = some c)
    (hwithin : Within (c.buf.length - c.currCount) r) (hcounted : r.Counted) :
    Inv bufs mems (s.onSend c r) := by
  rcases h.sending c hc with ⟨hle, haccepted⟩
  have hmoved : r.ret.getD 0 ≤ c.buf.length - c.currCount := hwithin.getD_le
  -- What has been accepted from the buffer is the part before the bytes still to send.
  have hfront : c.accepted ++ (c.buf.drop c.currCount).take (r.ret.getD 0)
      = c.buf.take (c.currCount + r.ret.getD 0) := by
    rw [haccepted, List.take_add]
  -- The bytes that go into flight are those that are accepted.
  have hbalance : (∀ d ∈ s.receives, d.ok = true) →
      s.receivedBytes ++ (s.inFlight ++ (c.buf.drop c.currCount).take (r.ret.getD 0))
        = s.sends.flatMap (·.accepted) ++
            (c.accepted ++ (c.buf.drop c.currCount).take (r.ret.getD 0)) := by
    intro hok
    have hbefore := h.balance hok
    simp only [acceptedBytes, hc, Option.map_some, Option.getD_some] at hbefore
    rw [← List.append_assoc, hbefore, List.append_assoc]
  have hcalls := h.calls
  unfold Stream.onSend
  rcases Sending.round_of_counted (c := c) hcounted with hround | hround
  · rw [hround]
    apply Inv.testSend
    refine ⟨?_, h.asked, ?_, h.receiving, h.size, h.sent, h.failed, hbalance⟩
    · simpa [sentBuffers, hc] using hcalls
    · intro d hd
      cases hd
      refine ⟨?_, hfront⟩
      show c.currCount + r.ret.getD 0 ≤ c.buf.length
      omega
  · rw [hround]
    refine ⟨?_, h.asked, by simp, h.receiving, h.size, ?_, ?_, ?_⟩
    · simpa [sentBuffers, hc] using hcalls
    · refine forall_mem_concat h.sent ?_
      intro hok
      cases hok
    · refine forall_mem_concat h.failed fun _ => ?_
      show c.accepted ++ (c.buf.drop c.currCount).take (r.ret.getD 0) <+: c.buf
      rw [hfront]
      exact List.take_prefix _ _
    · intro hok
      have hbefore := hbalance hok
      simpa [receivedBytes, acceptedBytes] using hbefore

/-- A round of `receiveB`: the bytes are stored. They are counted, or the call fails. -/
theorem Receiving.round_of_counted {c : Receiving} {r : Call Bytes}
    (hcounted : (r.map List.length).Counted) :
    let bs := r.ret.getD []
    c.round r = (⟨c.store bs, c.target, c.currCount + bs.length⟩, true) ∨
      c.round r = (⟨c.store bs, c.target, c.currCount⟩, false) := by
  intro bs
  have hlength : (r.map List.length).ret.getD 0 = bs.length := by
    unfold Call.map bs
    cases r.ret <;> rfl
  have hres := nonBlocking_of_counted hcounted
  rw [hlength] at hres
  unfold Receiving.round
  rcases hres with hcount | hneg
  · left
    have hpos : ¬nonBlocking (r.map List.length) < 0 := by omega
    simp only [if_neg hpos]
    rw [hcount, Int.toNat_natCast]
  · right
    simp only [if_pos hneg]
    rfl

/-- The memory behind the bytes received is written, nothing before them, and no byte beyond
the buffer. -/
theorem Receiving.store_take {c : Receiving} {bs : Bytes} (hle : c.currCount ≤ c.buf.length) :
    (c.store bs).take (c.currCount + bs.length) = c.buf.take c.currCount ++ bs := by
  unfold Receiving.store
  have hlen : (c.buf.take c.currCount).length = c.currCount := List.length_take_of_le hle
  rw [← List.append_assoc]
  apply List.take_left'
  rw [List.length_append, hlen]

theorem Receiving.store_length {c : Receiving} {bs : Bytes}
    (hle : c.currCount + bs.length ≤ c.buf.length) : (c.store bs).length = c.buf.length := by
  unfold Receiving.store
  rw [List.length_append, List.length_append, List.length_take, List.length_drop]
  omega

/-- What `recv` brings is the front of the bytes in flight. -/
theorem Call.ret_take (bs : Bytes) (r : Call Nat) :
    (r.map (fun n => bs.take n)).ret.getD [] = bs.take (r.ret.getD 0) := by
  unfold Call.map
  cases r.ret <;> rfl

/-- It is as long as its count. -/
theorem Call.length_take {bs : Bytes} {r : Call Nat} (h : ∀ n ∈ r.ret, n ≤ bs.length) :
    (r.map (fun n => bs.take n)).map List.length = r := by
  rcases r with ⟨ret, again⟩
  cases ret with
  | none => rfl
  | some n =>
      have hlength : (bs.take n).length = n := List.length_take_of_le (h n rfl)
      show Call.mk (some (bs.take n).length) again = ⟨some n, again⟩
      rw [hlength]

theorem Inv.onRecv {c : Receiving} {r : Call Nat} (h : Inv bufs mems s) (hc : s.receiving = some c)
    (hwithin : Within (min (c.target - c.currCount) s.inFlight.length) r)
    (hcounted : r.Counted) :
    Inv bufs mems (s.onRecv c r) := by
  rcases h.receiving c hc with ⟨hle, hlen⟩
  have htake := Call.ret_take s.inFlight r
  have htakenCounted : ((r.map (fun n => s.inFlight.take n)).map List.length).Counted := by
    rw [Call.length_take fun n hn => (hwithin n hn).2.trans (min_le_right _ _)]
    exact hcounted
  have hmoved : r.ret.getD 0 ≤ c.target - c.currCount :=
    hwithin.getD_le.trans (min_le_left _ _)
  have hcount : ((r.map (fun n => s.inFlight.take n)).ret.getD []).length ≤ r.ret.getD 0 := by
    rw [htake]
    exact List.length_take_le _ _
  have hstored : c.currCount + ((r.map (fun n => s.inFlight.take n)).ret.getD []).length
      ≤ c.buf.length := by
    omega
  unfold Stream.onRecv
  dsimp only
  have hasked := h.asked
  have hlength := Receiving.store_length hstored
  rcases Receiving.round_of_counted (c := c) htakenCounted with hround | hround
  · rw [hround]
    apply Inv.testReceive
    refine ⟨h.calls, ?_, h.sending, ?_, h.size, h.sent, h.failed, ?_⟩
    · simpa [askedSizes, hc] using hasked
    · intro d hd
      cases hd
      refine ⟨?_, ?_⟩
      · show c.currCount + _ ≤ c.target
        omega
      · rw [← hlen]
        exact hlength
    · -- The bytes received are the first of those that were in flight.
      intro hok
      have hbalance := h.balance hok
      simp only [receivedBytes, acceptedBytes, hc, Option.map_some, Option.getD_some]
        at hbalance ⊢
      rw [Receiving.store_take (by omega), htake, ← hbalance]
      simp only [List.append_assoc, List.take_append_drop]
  · rw [hround]
    refine ⟨h.calls, ?_, h.sending, by simp, ?_, h.sent, h.failed, ?_⟩
    · simpa [askedSizes, hc] using hasked
    · exact forall_mem_concat h.size (hlength.trans hlen)
    · intro hok
      have hfailed := hok _ (List.mem_append_right _ (List.mem_singleton.mpr rfl))
      cases hfailed

/-- **The step lemma.** -/
theorem Inv.step {s' : Stream} {e : StreamEvent} (h : Inv bufs mems s) (hcounted : Counted s e)
    (hstep : s.step e = .ok (s', ())) : Inv bufs mems s' := by
  unfold Stream.step at hstep
  cases e with
  -- The four events are the four lemmas above; in the other branches there is no step.
  | callSend =>
      cases hidle : s.sending with
      | some c => simp [hidle] at hstep
      | none =>
          cases hnext : s.toSend with
          | nil => simp [hidle, hnext] at hstep
          | cons buf rest =>
              simp only [hidle, hnext, pure_eq_ok, Except.ok.injEq, Prod.mk.injEq, and_true]
                at hstep
              rw [← hstep, ← hidle]
              exact h.callSend hidle hnext
  | send r =>
      cases hc : s.sending with
      | none => simp [hc] at hstep
      | some c =>
          simp only [hc] at hstep
          split_ifs at hstep with hwithin
          simp only [pure_eq_ok, Except.ok.injEq, Prod.mk.injEq, and_true] at hstep
          rw [← hstep]
          exact h.onSend hc hwithin hcounted
  | callReceive =>
      cases hidle : s.receiving with
      | some c => simp [hidle] at hstep
      | none =>
          cases hnext : s.toReceive with
          | nil => simp [hidle, hnext] at hstep
          | cons buf rest =>
              simp only [hidle, hnext, pure_eq_ok, Except.ok.injEq, Prod.mk.injEq, and_true]
                at hstep
              rw [← hstep, ← hidle]
              exact h.callReceive hidle hnext
  | recv r =>
      cases hc : s.receiving with
      | none => simp [hc] at hstep
      | some c =>
          simp only [hc] at hstep
          split_ifs at hstep with hwithin
          simp only [pure_eq_ok, Except.ok.injEq, Prod.mk.injEq, and_true] at hstep
          rw [← hstep]
          exact h.onRecv hc hwithin hcounted

/-! ## Runs -/

theorem flatMap_accepted_prefix {sends : List Sent} (h : ∀ d ∈ sends, d.accepted = d.buf) :
    sends.flatMap (·.accepted) = (sends.map (·.buf)).flatten := by
  rw [← List.flatMap_def]
  exact List.flatMap_congr h

theorem Inv.exact (h : Inv bufs mems s) : Exact bufs mems s := by
  refine ⟨h.calls, h.asked, ?_, h.size, h.sent, h.failed⟩
  intro hsends hreceives
  have hdone : s.sends.flatMap (·.accepted) = (s.sends.map (·.buf)).flatten :=
    flatMap_accepted_prefix fun d hd => h.sent d hd (hsends d hd)
  -- A call under way has had a front part of its buffer accepted, and no call is behind it.
  have hpending : (s.sending.map (·.accepted)).getD []
      <+: ((s.sending.map (·.buf)).toList).flatten := by
    cases hc : s.sending with
    | none => exact List.nil_prefix
    | some c =>
        show c.accepted <+: [c.buf].flatten
        rw [(h.sending c hc).2, List.flatten_singleton]
        exact List.take_prefix _ _
  have haccepted : s.acceptedBytes <+: s.sentBuffers.flatten := by
    rw [acceptedBytes, sentBuffers, List.flatten_append, hdone]
    exact (List.prefix_append_right_inj _).mpr hpending
  calc s.receives.flatMap (·.buf)
      <+: s.receivedBytes := List.prefix_append _ _
    _ <+: s.receivedBytes ++ s.inFlight := List.prefix_append _ _
    _ <+: s.sentBuffers.flatten := by
        rw [h.balance hreceives]
        exact haccepted

/-- **Every transfer is exact in a run without a count that is read as a smaller one.** -/
theorem exact_of_run {bufs mems : List Bytes} {events : List StreamEvent} {s' : Stream}
    {log : List (Entry Stream StreamEvent Unit)}
    (hrun : run step (start bufs mems) events = .ok (s', log))
    (hcounted : ∀ e ∈ log, Counted e.before e.input) : Exact bufs mems s' := by
  have hinv : Inv bufs mems s' :=
    run_invariant (p := Counted) (fun s e s' _ hI hp hstep => Inv.step hI hp hstep)
      (Inv.start bufs mems) hcounted hrun
  exact hinv.exact

/-- Three bytes in two calls, received in one, with counts of one byte and calls that would
block. -/
theorem exact_three_bytes :
    let events := [StreamEvent.callSend, .callReceive, .send ⟨some 1, false⟩, .recv ⟨none, true⟩,
      .recv ⟨some 1, true⟩, .send ⟨none, true⟩, .send ⟨some 1, true⟩, .callSend,
      .send ⟨some 1, false⟩, .recv ⟨some 2, false⟩]
    ∃ s' log, run step (start [[1, 2], [3]] [[0, 0, 0]]) events = .ok (s', log) ∧
      Exact [[1, 2], [3]] [[0, 0, 0]] s' := by
  intro events
  have hok : (run step (start [[1, 2], [3]] [[0, 0, 0]]) events).map
      (fun out => out.2.all fun e => match e.input with
        | .send r => decide r.Counted
        | .recv r => decide r.Counted
        | _ => true) = .ok true := by decide +kernel
  rcases map_eq_ok.mp hok with ⟨⟨s', log⟩, hrun, hall⟩
  refine ⟨s', log, hrun, exact_of_run hrun ?_⟩
  intro e he
  have hentry := List.all_eq_true.mp hall e he
  rcases e with ⟨before, input, output⟩
  cases input with
  | callSend => trivial
  | send r =>
      have hcounted : r.Counted := of_decide_eq_true hentry
      exact hcounted
  | callReceive => trivial
  | recv r =>
      have hcounted : r.Counted := of_decide_eq_true hentry
      exact hcounted

/-- All `2 ^ 32` bytes of a buffer are accepted at once: the count becomes 0, the first byte is
accepted once more, and then there is an error. -/
theorem exists_run_wrapped {buf : Bytes} (hlen : buf.length = 2 ^ 32) :
    ∃ s' log, run step (start [buf] []) [.callSend, .send ⟨some (2 ^ 32), false⟩,
        .send ⟨some 1, false⟩, .send ⟨none, false⟩] = .ok (s', log) ∧
      ∃ d ∈ s'.sends, d.buf = buf ∧ d.ok = false ∧ d.accepted.length = 2 ^ 32 + 1 := by
  have hpos : 0 < buf.length := by omega
  have hone : 1 < buf.length := by omega
  have hall : nonBlocking ⟨some (2 ^ 32), false⟩ = 0 := by decide
  have hbyte : nonBlocking ⟨some 1, false⟩ = 1 := by decide
  have herror : nonBlocking ⟨none, false⟩ = -1 := by decide
  have hwithin : Within (buf.length - 0) ⟨some (2 ^ 32), false⟩ := by
    intro n hn
    cases hn
    omega
  have hwithin' : Within (buf.length - 0) ⟨some 1, false⟩ := by
    intro n hn
    cases hn
    omega
  have hwithin'' : Within (buf.length - 1) ⟨none, false⟩ := by
    intro n hn
    cases hn
  -- The state after each of the four steps.
  let s1 : Stream := { start [] [] with sending := some ⟨buf, 0, []⟩ }
  let s2 : Stream := { start [] [] with sending := some ⟨buf, 0, buf⟩, inFlight := buf }
  let s3 : Stream := { start [] [] with
    sending := some ⟨buf, 1, buf ++ buf.take 1⟩, inFlight := buf ++ buf.take 1 }
  let s4 : Stream := { start [] [] with
    sends := [⟨buf, buf ++ buf.take 1, false⟩], inFlight := buf ++ buf.take 1 }
  have h1 : step (start [buf] []) .callSend = .ok (s1, ()) := by
    simp [step, start, testSend, hpos, s1]
  have h2 : step s1 (.send ⟨some (2 ^ 32), false⟩) = .ok (s2, ()) := by
    simp only [step, s1, start, hwithin, if_true, onSend, Sending.round, hall]
    simp [testSend, hpos, s2, start, ← hlen]
  have h3 : step s2 (.send ⟨some 1, false⟩) = .ok (s3, ()) := by
    simp only [step, s2, start, hwithin', if_true, onSend, Sending.round, hbyte]
    simp [testSend, hone, s3, start]
  have h4 : step s3 (.send ⟨none, false⟩) = .ok (s4, ()) := by
    simp only [step, s3, start, hwithin'', if_true, onSend, Sending.round, herror]
    simp [s4, start]
  have hrun : run step (start [buf] []) [.callSend, .send ⟨some (2 ^ 32), false⟩,
      .send ⟨some 1, false⟩, .send ⟨none, false⟩]
      = .ok (s4, [⟨start [buf] [], .callSend, ()⟩, ⟨s1, .send ⟨some (2 ^ 32), false⟩, ()⟩,
          ⟨s2, .send ⟨some 1, false⟩, ()⟩, ⟨s3, .send ⟨none, false⟩, ()⟩]) := by
    simp only [run, h1, h2, h3, h4, ok_bind, pure_eq_ok]
  refine ⟨s4, _, hrun, ⟨buf, buf ++ buf.take 1, false⟩, List.mem_singleton.mpr rfl, rfl, rfl, ?_⟩
  show (buf ++ buf.take 1).length = 2 ^ 32 + 1
  rw [List.length_append, List.length_take]
  omega

theorem not_exact_wrapped :
    let bufs := [List.replicate (2 ^ 32) 0]
    ∃ s' log, run step (start bufs []) [.callSend, .send ⟨some (2 ^ 32), false⟩,
        .send ⟨some 1, false⟩, .send ⟨none, false⟩] = .ok (s', log) ∧ ¬Exact bufs [] s' := by
  intro bufs
  rcases exists_run_wrapped List.length_replicate with ⟨s', log, hrun, d, hd, hbuf, hok, hlen⟩
  refine ⟨s', log, hrun, ?_⟩
  intro hexact
  have hle := (hexact.failed d hd hok).length_le
  rw [hlen, hbuf, List.length_replicate] at hle
  omega

end Stream

end ChatApp
