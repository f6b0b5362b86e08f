import ClickA.Bus.Packetizer

/-!
# Writing to the driver

The kernel driver of the bus queues the packets written to its device. `packet_write` adds room for
the latency of the other side before and after the data, and refuses what is too long.

Sizes are those of the 32-bit ARM the driver is built for.

## Main definitions

* `Packet`, `TxQueue`: a queued packet, and the queue with the memory it takes
* `packetWrite`, `packetFree`: writing a packet, and freeing it
* `copyFromUser`: the copy that a write asks the kernel for

## Main results

* `staysInBuffer_iff`: a write keeps to the buffer that it has allocated
* `accepted_iff`: an empty queue takes a write of the right length
* `accepted_busTxPkt_iff`: the frames of the packetizer that the driver accepts
-/

namespace ClickA.Driver

open Python (Bytes)
open Options

/-! ## Constants of `driver.h` -/

def maxTxQueueLen : ℕ := 2 ^ 26
def rxFifoLen : ℕ := 2 ^ 22
def packetSyncLen : ℕ := 4
def packetHeaderLen : ℕ := 6
def packetOverhead : ℕ := packetSyncLen + packetHeaderLen
def packetTmMaxLen : ℕ := 4100
def packetLatency : ℕ := 4
def defaultReadLen : ℕ := 128
def packetSyncMarker : BitVec 32 := 0x352EF853
def noopApid : ℕ := 0x2FF

/-- `sizeof(packet_t)`: a length, padding, a pointer and two links. -/
def sizeofPacket : ℕ := 16

/-- The values of a `size_t`. -/
def sizeRange : ℕ := 2 ^ 32

/-! ## The queue -/

/-- A packet to transmit: its length and its allocated data. -/
structure Packet where
  len : ℕ
  data : Bytes
deriving DecidableEq, Repr

/-- `tx_queue` and `tx_queue_len`. -/
structure TxQueue where
  packets : List Packet
  len : ℕ
deriving DecidableEq, Repr

/-- The queue when the driver is loaded. -/
def TxQueue.empty : TxQueue := ⟨[], 0⟩

inductive Errno
  | enomem
  | eagain
deriving DecidableEq, Repr

/-- What the kernel does during a write: whether it allocates the packet and its data, and whether
it copies from user space. -/
structure Kernel where
  allocPacket : Bool
  allocData : Bool
  copy : Bool

/-- A kernel that does all it is asked. -/
def Kernel.working : Kernel := ⟨true, true, true⟩

/-- The allocated data of a packet: zeros, with the bytes written after the latency. -/
def packetData (lenTot : ℕ) (buf : Bytes) : Bytes :=
  (List.replicate packetLatency 0 ++ (buf ++ List.replicate lenTot 0)).take lenTot

/-- The check of memory availability, without the allocation: the packet is too long, or the queue
too full. -/
def Unavailable (q : TxQueue) (lenTot : ℕ) : Prop :=
  lenTot > packetTmMaxLen ∨
    (maxTxQueueLen + sizeRange - q.len) % sizeRange < lenTot + sizeofPacket

instance (q : TxQueue) (lenTot : ℕ) : Decidable (Unavailable q lenTot) :=
  inferInstanceAs (Decidable (_ ∨ _))

/-- `len_tot`, a `uint16_t`. -/
def lenTot (len : ℕ) : ℕ := (len + 2 * packetLatency) % 2 ^ 16

/-- `packet_write`: the queue, and the number of bytes written or an error. -/
def packetWrite (k : Kernel) (q : TxQueue) (buf : Bytes) : TxQueue × Except Errno ℕ :=
  if Unavailable q (lenTot buf.length) ∨ k.allocPacket = false then (q, .error .enomem)
  else if k.allocData = false then (q, .error .enomem)
  else if k.copy then
    (⟨q.packets ++ [⟨lenTot buf.length, packetData (lenTot buf.length) buf⟩],
      (q.len + (lenTot buf.length + sizeofPacket)) % sizeRange⟩, .ok buf.length)
  else (q, .error .eagain)

/-- `packet_free`, for a packet that is no longer queued. -/
def packetFree (q : TxQueue) (p : Packet) : TxQueue :=
  { q with len := (2 * sizeRange + q.len - p.len - sizeofPacket) % sizeRange }

/-- A packet that is queued passed the check of its length. -/
theorem mem_packetWrite {k : Kernel} {q : TxQueue} {buf : Bytes} {p : Packet}
    (hp : p ∈ (packetWrite k q buf).1.packets) : p ∈ q.packets ∨ p.len ≤ packetTmMaxLen := by
  unfold packetWrite at hp
  split_ifs at hp with hcheck halloc hcopy
  · exact .inl hp
  · exact .inl hp
  · rcases List.mem_append.mp hp with hp | hp
    · exact .inl hp
    · obtain rfl := List.mem_singleton.mp hp
      exact .inr (Nat.le_of_not_lt fun hlt => hcheck (.inl (.inl hlt)))
  · exact .inl hp

/-! ## The copy from user space -/

/-- A copy from user space: how many bytes were allocated, where the copy begins in them, and how
many bytes it has. -/
structure UserCopy where
  size : ℕ
  offset : ℕ
  len : ℕ

/-- The call of `copy_from_user`, where `packet_write` comes to it. -/
def copyFromUser (k : Kernel) (q : TxQueue) (len : ℕ) : Option UserCopy :=
  if Unavailable q (lenTot len) ∨ k.allocPacket = false then none
  else if k.allocData = false then none
  else some ⟨lenTot len, packetLatency, len⟩

/-- The write ends before the copy: the packet is too long or the queue too full, as the check of
memory availability has it, or an allocation fails. -/
def Refused (k : Kernel) (q : TxQueue) (len : ℕ) : Prop :=
  Unavailable q (lenTot len) ∨ k.allocPacket = false ∨ k.allocData = false

/-- The bytes that are copied have room behind the latency, and a packet that is queued has room for
the latency on both sides, and says so. -/
structure StaysInBuffer (k : Kernel) (q : TxQueue) (buf : Bytes) : Prop where
  copies : ∀ c ∈ copyFromUser k q buf.length, c.offset = packetLatency ∧ c.len = buf.length ∧
    packetLatency + buf.length ≤ c.size
  queued : ∀ p, (packetWrite k q buf).1.packets = q.packets ++ [p] →
    2 * packetLatency + buf.length ≤ packetTmMaxLen ∧ p.len = 2 * packetLatency + buf.length

section UserCopy

variable {k : Kernel} {q : TxQueue} {buf : Bytes} {len : ℕ}

theorem copyFromUser_eq_none_iff : copyFromUser k q len = none ↔ Refused k q len := by
  unfold copyFromUser Refused
  rw [← or_assoc]
  split_ifs with hcheck halloc
  · exact iff_of_true rfl (.inl hcheck)
  · exact iff_of_true rfl (.inr halloc)
  · exact iff_of_false (by simp) (not_or.mpr ⟨hcheck, halloc⟩)

theorem copyFromUser_of_not (h : ¬ Refused k q len) :
    copyFromUser k q len = some ⟨lenTot len, packetLatency, len⟩ := by
  obtain ⟨hun, halloc, hdata⟩ : ¬ Unavailable q (lenTot len) ∧ ¬ k.allocPacket = false ∧
      ¬ k.allocData = false := by
    simpa only [Refused, not_or] using h
  unfold copyFromUser
  rw [if_neg (not_or.mpr ⟨hun, halloc⟩), if_neg hdata]

/-- Only what was copied is queued. -/
theorem packetWrite_of_refused (h : Refused k q buf.length) :
    packetWrite k q buf = (q, .error .enomem) := by
  unfold packetWrite
  rcases h with hun | halloc | hdata
  · rw [if_pos (.inl hun)]
  · rw [if_pos (.inr halloc)]
  · split_ifs
    · rfl
    · rfl

/-- A packet is queued behind a copy that the kernel has made. -/
theorem packetWrite_of_not (h : ¬ Refused k q buf.length) : packetWrite k q buf =
    if k.copy then
      (⟨q.packets ++ [⟨lenTot buf.length, packetData (lenTot buf.length) buf⟩],
        (q.len + (lenTot buf.length + sizeofPacket)) % sizeRange⟩, .ok buf.length)
    else (q, .error .eagain) := by
  obtain ⟨hun, halloc, hdata⟩ : ¬ Unavailable q (lenTot buf.length) ∧ ¬ k.allocPacket = false ∧
      ¬ k.allocData = false := by
    simpa only [Refused, not_or] using h
  unfold packetWrite
  rw [if_neg (not_or.mpr ⟨hun, halloc⟩), if_neg hdata]

/-- A length that is not cut to its sixteen bits. -/
theorem lenTot_of_lt (h : len + 2 * packetLatency < 2 ^ 16) :
    lenTot len = 2 * packetLatency + len :=
  (Nat.mod_eq_of_lt h).trans (Nat.add_comm _ _)

/-- A write that is not refused has at most the length of a packet, in its sixteen bits. -/
theorem lenTot_le_of_not (h : ¬ Refused k q len) : lenTot len ≤ packetTmMaxLen :=
  Nat.le_of_not_lt fun hlt => h (.inl (.inl hlt))

/-- **A write keeps to its buffer if and only if its length, with the latency, has sixteen bits, or
it ends before the copy.** -/
theorem staysInBuffer_iff (k : Kernel) (q : TxQueue) (buf : Bytes) :
    StaysInBuffer k q buf ↔ buf.length + 2 * packetLatency < 2 ^ 16 ∨ Refused k q buf.length := by
  by_cases hrefused : Refused k q buf.length
  · refine iff_of_true ⟨fun c hc => ?_, fun p hp => ?_⟩ (.inr hrefused)
    · rw [copyFromUser_eq_none_iff.mpr hrefused] at hc
      cases hc
    · rw [packetWrite_of_refused hrefused] at hp
      exact absurd hp (by simp)
  · rw [or_iff_left hrefused]
    have hle := lenTot_le_of_not hrefused
    constructor
    · intro hstays
      obtain ⟨-, -, hroom⟩ := hstays.copies _ (copyFromUser_of_not hrefused)
      -- a length that was cut leaves no room for the bytes
      unfold packetLatency packetTmMaxLen at *
      dsimp only at hroom
      omega
    · intro hlt
      have htot := lenTot_of_lt hlt
      refine ⟨fun c hc => ?_, fun p hp => ?_⟩
      · rw [copyFromUser_of_not hrefused, Option.mem_some_iff] at hc
        subst hc
        refine ⟨rfl, rfl, ?_⟩
        show packetLatency + buf.length ≤ lenTot buf.length
        omega
      · rw [packetWrite_of_not hrefused] at hp
        split_ifs at hp with hcopy
        · obtain rfl := List.singleton_injective (List.append_cancel_left hp)
          exact ⟨htot ▸ hle, htot⟩
        · exact absurd hp (by simp)

/-- A write of 65536 bytes, whose packet gets the eight bytes of the latency. -/
theorem not_staysInBuffer_wrapped :
    ¬ StaysInBuffer .working .empty (List.replicate 65536 0) := by
  intro hstays
  have hcopies := hstays.copies
  rw [List.length_replicate] at hcopies
  obtain ⟨-, -, hroom⟩ := hcopies ⟨8, packetLatency, 65536⟩ rfl
  exact absurd hroom (by decide)

end UserCopy

/-! ## The frames of the packetizer -/

section Frames

/-- The driver accepts a write when its queue is empty and the kernel does all it is asked. -/
def Accepted (buf : Bytes) : Prop :=
  (packetWrite .working .empty buf).2 = .ok buf.length

theorem unavailable_empty_iff (n : ℕ) : Unavailable .empty n ↔ packetTmMaxLen < n := by
  unfold Unavailable maxTxQueueLen sizeRange TxQueue.empty sizeofPacket packetTmMaxLen
  dsimp only
  omega

theorem accepted_iff (buf : Bytes) : Accepted buf ↔ lenTot buf.length ≤ packetTmMaxLen := by
  unfold Accepted packetWrite
  constructor
  · intro hok
    by_contra hlt
    have hun := (unavailable_empty_iff (lenTot buf.length)).mpr (Nat.lt_of_not_le hlt)
    rw [if_pos (.inl hun)] at hok
    exact absurd hok (by simp)
  · intro hle
    have hun := mt (unavailable_empty_iff (lenTot buf.length)).mp (Nat.not_lt.mpr hle)
    rw [if_neg (not_or.mpr ⟨hun, Bool.noConfusion⟩)]
    rfl

/-- The frame of a packet and the room for the latency. -/
theorem length_busTxPkt (apid seqFlag seqCnt : ℕ) (data : Bytes) :
    (Bus.Packetizer.busTxPkt apid seqFlag seqCnt data.length data).length = data.length + 12 := by
  simp [Bus.Packetizer.busTxPkt, Bus.ccsdsSync]

/-- **The driver accepts the frames with two bytes of data less than the packetizer may send.** -/
theorem accepted_busTxPkt_iff (apid seqFlag seqCnt : ℕ) (s : Bus.Packetizer.DataSegment) :
    Accepted (Bus.Packetizer.busTxPkt apid seqFlag seqCnt s.1.length s.1) ↔ s.1.length ≤ 4080 := by
  have hs : s.1.length ≤ 4082 := s.2
  rw [accepted_iff, length_busTxPkt, lenTot, packetLatency, packetTmMaxLen]
  omega

/-- A full segment. -/
def fullSegment : Bus.Packetizer.DataSegment :=
  ⟨List.replicate busDataLen 0, List.length_replicate.le⟩

theorem not_accepted_fullSegment :
    ¬ Accepted (Bus.Packetizer.busTxPkt 0x301 0b01 0 fullSegment.1.length fullSegment.1) := by
  have hfull : fullSegment.1.length = 4082 := List.length_replicate
  rw [accepted_iff, length_busTxPkt, hfull]
  decide

end Frames

end ClickA.Driver
