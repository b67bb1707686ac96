import ChatApp.Common.PacketCut
import ChatApp.Protobuf.Service
import ChatApp.Protobuf.Sizes

set_option autoImplicit false

/-! # Packets that arrive in pieces

Both ends leave their receive loop with the first chunk of bytes and parse the whole buffer.
What follows on the stream is not read, so a packet that arrives in pieces is acted on as if
the buffer held it only where it held its bytes already. In a cleared buffer, that of the
server and of `registerUser`, this is so exactly if the bytes behind the first chunk are
zeros (`segmentation_iff`): a packet is never read from its first bytes.
-/

namespace ChatApp

open Lib Lib.Wire Lib.Wire.Message

/-- The calls of `recv` bring the bytes of a stream in nonempty chunks, with calls in between
that bring nothing. -/
def Chunks : List Recv → Bytes → Prop
  | [], stream => stream = []
  | .data bs :: recvs, stream => bs ≠ [] ∧ ∃ rest, stream = bs ++ rest ∧ Chunks recvs rest
  | .wouldBlock :: recvs, stream => Chunks recvs stream
  | .closed :: _, _ => False
  | .error :: _, _ => False

/-- A nonempty stream in one chunk. -/
theorem arrived_whole {size : Nat} {stream : Bytes} (hne : stream ≠ [])
    (hle : stream.length ≤ size) : arrived size [.data stream] = some stream := by
  rw [arrived, List.take_of_length_le hle, if_neg hne]

/-- The first chunk of a packet that fits the buffer is what the loop takes; of the packet in
one chunk it takes all. -/
theorem Chunks.arrived_eq {size : Nat} {recvs : List Recv} {stream : Bytes}
    (h : Chunks recvs stream) (hle : stream.length ≤ size) :
    stream = [] ∧ arrived size recvs = none ∨
      ∃ bs rest, stream = bs ++ rest ∧ arrived size recvs = some bs ∧
        arrived size [.data stream] = some stream := by
  induction recvs with
  | nil => exact .inl ⟨h, rfl⟩
  | cons r recvs ih =>
      cases r with
      | data bs =>
          obtain ⟨hne, rest, rfl, -⟩ := h
          have hwhole := arrived_whole (List.append_ne_nil_of_left_ne_nil hne rest) hle
          rw [List.length_append] at hle
          have htake : bs.take size = bs := List.take_of_length_le (by omega)
          exact .inr ⟨bs, rest, rfl, by rw [arrived, htake, if_neg hne], hwhole⟩
      | wouldBlock => exact ih h
      | closed => exact absurd h id
      | error => exact absurd h id

/-- The bytes of a stream behind the first chunk. -/
def cutOff (size : Nat) (recvs : List Recv) (stream : Bytes) : Bytes :=
  stream.drop ((arrived size recvs).getD []).length

/-- What the application decodes from a receive buffer. -/
def App.decodedFrom (rxBuffer : Bytes) (recvs : List Recv) : Option Mcc.Packet :=
  (App.receive rxBuffer recvs).map Prod.fst

theorem App.decodedFrom_eq (rxBuffer : Bytes) (recvs : List Recv) :
    App.decodedFrom rxBuffer recvs = (arrived App.bufferSize recvs).map
      (fun bs => (parseFromArray (bs ++ rxBuffer.drop bs.length)).1) := by
  rw [decodedFrom, receive, receiveLoop_eq]
  cases arrived App.bufferSize recvs <;> rfl

theorem ServerApp.received_eq (recvs : List Recv) :
    ServerApp.received recvs = (arrived ServerApp.bufferSize recvs).map
      (fun bs =>
        (parseFromArray (bs ++ List.replicate (ServerApp.bufferSize - bs.length) 0)).1) := by
  rw [received, receiveLoop_eq, Option.map_map]
  congr 1
  funext bs
  rw [Function.comp_apply, List.drop_replicate]

section Buffers

variable {p : Mcc.Packet} {bs rest : Bytes}

/-- **In a buffer cleared behind the first chunk the packet is read exactly if what was cut off
is zero.** -/
theorem parse_first_chunk_iff (hp : p.WellFormed) (hsize : byteSizeLong p < 2 ^ 35)
    (hbytes : serialize p = bs ++ rest) {n : Nat} (hn : rest.length ≤ n) :
    (parseFromArray (bs ++ List.replicate n 0) : Mcc.Packet × Bool).1 = p ↔ Zeros rest := by
  constructor
  · intro heq
    by_contra hrest
    exact Mcc.Packet.exact hp hsize bs rest n hbytes hrest hn heq
  · intro hrest
    have hpad : bs ++ List.replicate n 0 = serialize p ++ List.replicate (n - rest.length) 0 := by
      rw [hbytes, List.append_assoc, zeros_iff_eq_replicate.mp hrest, List.length_replicate,
        List.replicate_append_replicate, Nat.add_sub_cancel' hn]
    rw [hpad, (Mcc.Packet.sound hp hsize).parse_zeros]

end Buffers

variable {p : Mcc.Packet} {recvs : List Recv}

/-- At the server, whose buffer is cleared. -/
theorem ServerApp.received_iff (hp : p.WellFormed) (hchunks : Chunks recvs (serialize p))
    (hfits : byteSizeLong p ≤ ServerApp.bufferSize) :
    ServerApp.received recvs = ServerApp.received [.data (serialize p)] ↔
      Zeros (cutOff ServerApp.bufferSize recvs (serialize p)) := by
  have hsize : byteSizeLong p < 2 ^ 35 := lt_of_le_of_lt hfits (by decide)
  rw [ServerApp.received_eq, ServerApp.received_eq, cutOff]
  rcases hchunks.arrived_eq hfits with ⟨hnil, hnone⟩ | ⟨bs, rest, hbytes, hsome, hwhole⟩
  · rw [hnone, hnil]
    exact iff_of_true rfl (List.forall_mem_nil _)
  · have hlen : bs.length + rest.length ≤ ServerApp.bufferSize := by
      rw [← List.length_append, ← hbytes]
      exact hfits
    -- In one chunk the packet is read back, since the buffer is zero behind it.
    have hread : (parseFromArray (serialize p ++ List.replicate (ServerApp.bufferSize
        - (serialize p).length) 0) : Mcc.Packet × Bool).1 = p :=
      (Mcc.Packet.sound hp hsize).parse_zeros _
    rw [hsome, hwhole, Option.map_some, Option.map_some, Option.some.injEq,
      hread, parse_first_chunk_iff hp hsize hbytes (by omega), Option.getD_some, hbytes,
      List.drop_left]

/-- Bytes that are in the buffer already need not arrive. -/
theorem App.decodedFrom_of_prefix (hchunks : Chunks recvs (serialize p))
    (hfits : byteSizeLong p ≤ App.bufferSize) {rxBuffer : Bytes}
    (hheld : cutOff App.bufferSize recvs (serialize p)
      <+: rxBuffer.drop ((arrived App.bufferSize recvs).getD []).length) :
    App.decodedFrom rxBuffer recvs = App.decodedFrom rxBuffer [.data (serialize p)] := by
  rw [App.decodedFrom_eq, App.decodedFrom_eq]
  rcases hchunks.arrived_eq hfits with ⟨hnil, hnone⟩ | ⟨bs, rest, hbytes, hsome, hwhole⟩
  · rw [hnone, hnil]
    rfl
  · rw [cutOff, hsome, Option.getD_some, hbytes, List.drop_left] at hheld
    obtain ⟨more, hmore⟩ := hheld
    have hmore' : rxBuffer.drop (serialize p).length = more := by
      rw [hbytes, List.length_append, ← List.drop_drop, ← hmore, List.drop_left]
    rw [hsome, hwhole, Option.map_some, Option.map_some, hmore', ← hmore,
      hbytes, List.append_assoc]

/-- In a buffer that is zero behind the first chunk nothing else may be missing. -/
theorem App.zeros_of_decodedFrom (hp : p.WellFormed) (hchunks : Chunks recvs (serialize p))
    (hfits : byteSizeLong p ≤ App.bufferSize) {rxBuffer : Bytes}
    (hrx : rxBuffer.length = App.bufferSize)
    (hcleared : Zeros (rxBuffer.drop ((arrived App.bufferSize recvs).getD []).length))
    (heq : App.decodedFrom rxBuffer recvs = App.decodedFrom rxBuffer [.data (serialize p)]) :
    Zeros (cutOff App.bufferSize recvs (serialize p)) := by
  have hsize : byteSizeLong p < 2 ^ 35 := lt_of_le_of_lt hfits (by decide)
  rw [App.decodedFrom_eq, App.decodedFrom_eq] at heq
  rcases hchunks.arrived_eq hfits with ⟨hnil, -⟩ | ⟨bs, rest, hbytes, hsome, hwhole⟩
  · rw [cutOff, hnil, List.drop_nil]
    exact List.forall_mem_nil _
  · rw [hsome, Option.getD_some] at hcleared
    rw [cutOff, hsome, Option.getD_some, hbytes, List.drop_left]
    have hlen : bs.length + rest.length ≤ App.bufferSize := by
      rw [← List.length_append, ← hbytes]
      exact hfits
    -- Behind the whole packet the buffer is zero as well, so the packet is read from there.
    have hbehind : rxBuffer.drop (serialize p).length
        = List.replicate (rxBuffer.drop (serialize p).length).length 0 := by
      refine zeros_iff_eq_replicate.mp fun b hb => hcleared b ?_
      rw [hbytes, List.length_append, ← List.drop_drop] at hb
      exact List.mem_of_mem_drop hb
    rw [hsome, hwhole, Option.map_some, Option.map_some, Option.some.injEq,
      hbehind, (Mcc.Packet.sound hp hsize).parse_zeros, zeros_iff_eq_replicate.mp hcleared] at heq
    refine (parse_first_chunk_iff hp hsize hbytes ?_).mp heq
    rw [List.length_drop, hrx]
    omega

/-- **When a packet may arrive in pieces.** At the server: exactly if the bytes behind the
first chunk are zeros. At the application: if the buffer holds these bytes already, and in a
buffer that is zero behind the first chunk only then. -/
theorem segmentation_iff (hp : p.WellFormed) (hchunks : Chunks recvs (serialize p)) :
    (byteSizeLong p ≤ ServerApp.bufferSize → ∀ iter db,
      (ServerApp.handleRequest iter db recvs
          = ServerApp.handleRequest iter db [.data (serialize p)] ↔
        Zeros (cutOff ServerApp.bufferSize recvs (serialize p)))) ∧
    (byteSizeLong p ≤ App.bufferSize → ∀ rxBuffer : Bytes, rxBuffer.length = App.bufferSize →
      (cutOff App.bufferSize recvs (serialize p)
          <+: rxBuffer.drop ((arrived App.bufferSize recvs).getD []).length →
        App.decodedFrom rxBuffer recvs = App.decodedFrom rxBuffer [.data (serialize p)]) ∧
      (Zeros (rxBuffer.drop ((arrived App.bufferSize recvs).getD []).length) →
        App.decodedFrom rxBuffer recvs = App.decodedFrom rxBuffer [.data (serialize p)] →
          Zeros (cutOff App.bufferSize recvs (serialize p)))) := by
  constructor
  · intro hfits iter db
    rw [← ServerApp.received_iff hp hchunks hfits, ServerApp.handleRequest_eq,
      ServerApp.handleRequest_eq]
    constructor
    · intro heq
      have hpackets := congrArg (Option.map ServerApp.Handled.packet) heq
      simpa [Option.map_map, Function.comp_def] using hpackets
    · intro heq
      rw [heq]
  · intro hfits rxBuffer hrx
    exact ⟨App.decodedFrom_of_prefix hchunks hfits,
      App.zeros_of_decodedFrom hp hchunks hfits hrx⟩

/-- The name ends in a zero byte, which arrives later than the rest. -/
theorem segmentation_zero_behind :
    ServerApp.handleRequest (.ascending _ _) .empty
        [.data [10, 2, 8, 0, 18, 4, 10, 2, 65], .wouldBlock, .data [0]]
      = ServerApp.handleRequest (.ascending _ _) .empty
        [.data (serialize (App.requestPacket (.register [65, 0])))] := by
  have hwf : (App.requestPacket (.register [65, 0])).WellFormed :=
    App.requestPacket_wellFormed (by decide)
  have hchunks : Chunks [.data [10, 2, 8, 0, 18, 4, 10, 2, 65], .wouldBlock, .data [0]]
      (serialize (App.requestPacket (.register [65, 0]))) :=
    ⟨by decide, [0], by decide +kernel, by decide, [], rfl, rfl⟩
  exact ((segmentation_iff hwf hchunks).1 (by decide +kernel) _ _).mpr (by decide +kernel)

/-- The second letter of the name arrives later: the user is registered under another name. -/
theorem not_same_in_two_pieces :
    let recvs := [Recv.data [10, 2, 8, 0, 18, 4, 10, 2, 65], .data [66]]
    let p := App.requestPacket (.register [65, 66])
    p.WellFormed ∧ Chunks recvs (serialize p) ∧ byteSizeLong p ≤ ServerApp.bufferSize ∧
      ServerApp.handleRequest (.ascending _ _) .empty recvs
        ≠ ServerApp.handleRequest (.ascending _ _) .empty [.data (serialize p)] := by
  refine ⟨App.requestPacket_wellFormed (by decide),
    ⟨by decide, [66], by decide +kernel, by decide, [], rfl, rfl⟩, by decide +kernel, ?_⟩
  intro heq
  have hnames := congrArg (Option.map fun h => h.packet.reqReg) heq
  revert hnames
  decide +kernel

end ChatApp
