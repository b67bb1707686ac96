import ChatApp.Lib.Bytes

set_option autoImplicit false

/-! # The socket (`tcp_lib/socket.h`)

What the operating system does is an input: a call of `recv` comes back with bytes that have
arrived, with nothing yet, with an error, or with the end of the stream. `receiveNb` is the
wrapper around one call, `receiveLoop` the loop in which the server and the client wait for a
packet: it ends with the first call that does not return zero, so what it takes is the first
nonempty chunk (`arrived`), not a packet.
-/

namespace ChatApp

open Lib

/-- What one call of `recv` comes back with. -/
inductive Recv
  | data (bs : Bytes)
  | wouldBlock
  | closed
  | error
  deriving Repr, DecidableEq

/-- One call of `recv` for at most `size` bytes: the result, and the buffer after it. An end
of stream and a call that would block both give zero. -/
def receiveNb (pData : Bytes) (size : Nat) : Recv → Int × Bytes
  | .data bs => ((bs.take size).length, bs.take size ++ pData.drop (bs.take size).length)
  | .wouldBlock => (0, pData)
  | .closed => (0, pData)
  | .error => (-1, pData)

/-- `while(receiveNb(..) == 0) {}`, given what the calls of `recv` come back with: the buffer
once the loop is left, if it is. -/
def receiveLoop (pData : Bytes) (size : Nat) : List Recv → Option Bytes
  | [] => none
  | r :: rs =>
      let (n, pData) := receiveNb pData size r
      if n = 0 then receiveLoop pData size rs else some pData

/-- The bytes the loop takes: those of the first call that brings any, none on an error. -/
def arrived (size : Nat) : List Recv → Option Bytes
  | [] => none
  | .data bs :: rs => if bs.take size = [] then arrived size rs else some (bs.take size)
  | .wouldBlock :: rs => arrived size rs
  | .closed :: rs => arrived size rs
  | .error :: _ => some []

theorem receiveLoop_data (pData : Bytes) (size : Nat) (bs : Bytes) (rs : List Recv) :
    receiveLoop pData size (.data bs :: rs)
      = if bs.take size = [] then receiveLoop pData size rs
        else some (bs.take size ++ pData.drop (bs.take size).length) := by
  have hzero : ((bs.take size).length : Int) = 0 ↔ bs.take size = [] := by
    rw [Int.natCast_eq_zero, List.length_eq_zero_iff]
  show (if ((bs.take size).length : Int) = 0 then _ else _) = _
  by_cases hnil : bs.take size = []
  · rw [if_pos (hzero.mpr hnil), if_pos hnil, hnil]
    rfl
  · rw [if_neg (hzero.not.mpr hnil), if_neg hnil]

/-- **What the loop leaves in the buffer**: the bytes that arrived, and behind them what the
buffer held. -/
theorem receiveLoop_eq (pData : Bytes) (size : Nat) (rs : List Recv) :
    receiveLoop pData size rs = (arrived size rs).map (fun bs => bs ++ pData.drop bs.length) := by
  induction rs with
  | nil => rfl
  | cons r rs ih =>
      cases r with
      | data bs =>
          rw [receiveLoop_data, arrived, ih]
          split_ifs <;> rfl
      | wouldBlock => simpa [receiveLoop, receiveNb, arrived] using ih
      | closed => simpa [receiveLoop, receiveNb, arrived] using ih
      | error => simp [receiveLoop, receiveNb, arrived]

/-- No more arrives than was asked for. -/
theorem arrived_length_le {size : Nat} {rs : List Recv} {bs : Bytes}
    (h : arrived size rs = some bs) : bs.length ≤ size := by
  induction rs with
  | nil => cases h
  | cons r rs ih =>
      cases r with
      | data b =>
          simp only [arrived] at h
          split_ifs at h with hnil
          · exact ih h
          · cases h
            exact List.length_take_le size b
      | wouldBlock => exact ih h
      | closed => exact ih h
      | error => cases h; exact Nat.zero_le size

end ChatApp
