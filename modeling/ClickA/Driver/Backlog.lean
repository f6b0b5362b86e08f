import ClickA.Driver.Downlink

/-!
# The packetizer's backlog on the driver

The device that the packetizer writes to is that of the driver, which refuses frames that leave no
room for the latency, and any frame for which its queue or the kernel has no memory. No frame waits
or is lost exactly when each message fits in one frame that the driver takes.

## Main definitions

* `spiWrite`: a write to the driver, as the packetizer sees it
* `Delivery`: a message, with the kernel and the queue of the driver at its write
* `Delivery.HasRoom`: there is memory for the frame

## Main results

* `Sender.iteration_eq`: the packetizer on the driver is the packetizer with these writes
* `noBacklog_iff`: which messages, and when, leave no frame behind
-/

namespace ClickA.Driver

open Python Stream Options
open Bus Packetizer

/-- A write to the driver: an error raises an exception. -/
def spiWrite (k : Kernel) (q : TxQueue) : SpiWrite := fun buf =>
  match (packetWrite k q buf).2 with
  | .ok _ => .ok ()
  | .error _ => .error .ioError

section SpiWrite

variable {k : Kernel} {q : TxQueue} {buf : Bytes}

theorem spiWrite_eq_ok_iff :
    spiWrite k q buf = .ok () ↔ ¬ Refused k q buf.length ∧ k.copy = true := by
  unfold spiWrite
  by_cases hrefused : Refused k q buf.length
  · simp [packetWrite_of_refused hrefused, hrefused]
  · rw [packetWrite_of_not hrefused]
    cases k.copy <;> simp [hrefused]

/-- **The packetizer on the driver is the packetizer with these writes, until an exception ends
it.** -/
theorem Sender.iteration_eq (type : ByteType) (k : Kernel) (s : Sender) (raw : Bytes) :
    match Packetizer.iteration type s.packetizer raw (spiWrite k s.driver.queue) with
    | .ok p => (Sender.iteration type k s raw).packetizer = p ∧
      (Sender.iteration type k s raw).alive = s.alive
    | .error _ => (Sender.iteration type k s raw).alive = false := by
  unfold Packetizer.iteration Sender.iteration
  cases handleTxPkts type
      { s.packetizer with ipcPktsBuffer := s.packetizer.ipcPktsBuffer ++ [raw] } with
  | error e => rfl
  | ok p =>
    rw [ok_bind]
    unfold Packetizer.sendBusPkts Sender.sendBusPkts
    dsimp only
    cases p.busPktsBuffer with
    | nil => exact ⟨rfl, rfl⟩
    | cons pkt pkts =>
      dsimp only
      unfold spiWrite
      cases (packetWrite k s.driver.queue pkt).2 with
      | ok n => exact ⟨rfl, rfl⟩
      | error e => rfl

end SpiWrite

/-- A message that the packetizer receives, with the kernel and the queue of the driver when its
frame is written. -/
structure Delivery where
  message : Message
  kernel : Kernel
  queue : TxQueue

namespace Delivery

/-- The message and the device it is written to. -/
def input (d : Delivery) : Message × SpiWrite := (d.message, spiWrite d.kernel d.queue)

/-- The queue and the kernel have memory for the frame of the payload with its latency, and the
kernel copies it. -/
structure HasRoom (d : Delivery) : Prop where
  queue : d.message.payload.length + 12 + 2 * packetLatency + sizeofPacket ≤
    (maxTxQueueLen + sizeRange - d.queue.len) % sizeRange
  allocPacket : d.kernel.allocPacket = true
  allocData : d.kernel.allocData = true
  copy : d.kernel.copy = true

variable {d : Delivery}

/-- The frame of a message that fits in one. -/
theorem busPkts_eq_singleton (h : d.message.payload.length ≤ busDataLen) :
    ∃ frame : Bytes, d.message.busPkts = [frame] ∧
      frame.length = d.message.payload.length + 12 := by
  refine ⟨(packetFor (BitVec.ofNat 11 d.message.apid) .standalone 0
    ⟨d.message.payload, h⟩).frame, ?_, ?_⟩
  · rw [Message.busPkts, busPkts, dataSegments, segments_of_le _ h]
    rfl
  · rw [Telemetry.length_frame]
    rfl

/-- The driver takes it if the latency leaves room for its length, and there is memory. -/
theorem writable_input_iff (h : d.message.payload.length ≤ busDataLen) :
    Writable d.input ↔ d.message.payload.length ≤ 4080 ∧ d.HasRoom := by
  obtain ⟨frame, hframe, hlen⟩ := busPkts_eq_singleton h
  have htot : lenTot frame.length = d.message.payload.length + 12 + 2 * packetLatency := by
    unfold busDataLen at h
    rw [lenTot, hlen, packetLatency]
    omega
  rw [Writable, input, hframe, List.forall_mem_singleton, spiWrite_eq_ok_iff, Refused,
    Unavailable, htot]
  simp only [not_or, not_lt, Bool.not_eq_false]
  constructor
  · rintro ⟨⟨⟨hmax, hqueue⟩, halloc, hdata⟩, hcopy⟩
    unfold packetTmMaxLen packetLatency at hmax
    exact ⟨by omega, hqueue, halloc, hdata, hcopy⟩
  · rintro ⟨hmax, hqueue, halloc, hdata, hcopy⟩
    refine ⟨⟨⟨?_, hqueue⟩, halloc, hdata⟩, hcopy⟩
    unfold packetTmMaxLen packetLatency
    omega

/-- **No frame waits or is lost if and only if each payload has at most 4080 bytes, and the driver
has memory for it.** -/
theorem noBacklog_iff (ds : List Delivery) : NoBacklog (ds.map input) ↔
    ∀ d ∈ ds, d.message.payload.length ≤ 4080 ∧ d.HasRoom := by
  rw [noBacklog_iff_writable, List.forall_mem_map]
  refine forall₂_congr fun d _ => ?_
  constructor
  · rintro ⟨hle, htakes⟩
    exact (writable_input_iff hle).mp htakes
  · rintro ⟨hle, hroom⟩
    have hfits : d.message.payload.length ≤ busDataLen := hle.trans (by decide)
    exact ⟨hfits, (writable_input_iff hfits).mpr ⟨hle, hroom⟩⟩

end Delivery

end ClickA.Driver
