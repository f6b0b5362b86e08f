import ClickA.Driver.Transfer
import ClickA.Stream.Queue

/-!
# The packets that wait for transmission

A packet joins the queue when a write accepts it, leaves the queue with an interrupt that finds the
driver idle, and is freed at the end of the first transfer, which is the one that carries it. The
counter is raised by the write, and lowered when the packet is freed.

## Main definitions

* `memory`: the memory of the packets queued or in transmission
* `transmitted`: the packets that transfers have carried
* `acceptedPackets`: the packets that the writes of a run have accepted
* `begun`: the transactions that a run begins
* `Accounted`: the invariant of the counter

## Main results

* `accounted_step`: every step keeps the counter
* `fifo_step`: the driver's queue is a first-in, first-out queue, served by the interrupts
* `length_transmitted_run`: a packet is transmitted with each transaction that begins
* `accounted_run`: so it is in every run
-/

namespace ClickA.Driver

open Python (Bytes)
open Stream

/-! ## Packets -/

/-- The memory of a packet. -/
def Packet.memory (p : Packet) : ℕ := p.len + sizeofPacket

/-- The memory of the packets queued or in transmission. -/
def memory (d : SpiData) : ℕ := ((d.queue.packets ++ d.tx.toList).map Packet.memory).sum

/-- The packet that a transfer carries, if any. -/
def Xfer.packet (x : Xfer) : Option Packet := x.txBuf.map fun data => ⟨x.len, data⟩

/-- The packets that transfers have carried. -/
def transmitted (d : SpiData) : List Packet := d.xfers.filterMap Xfer.packet

/-- The packet of a write: the bytes between two latencies. -/
def userPacket (buf : Bytes) : Packet where
  len := buf.length + 2 * packetLatency
  data := List.replicate packetLatency 0 ++ buf ++ List.replicate packetLatency 0

/-- The packet that an event accepts. -/
def acceptedBy (d : SpiData) : Event → List Packet
  | .write k buf =>
    match (packetWrite k d.queue buf).2 with
    | .ok _ => [userPacket buf]
    | .error _ => []
  | _ => []

/-- The packets that the writes of a run accept. -/
def acceptedPackets : SpiData → List Event → List Packet
  | _, [] => []
  | d, e :: es => acceptedBy d e ++
    match step d e with
    | some d' => acceptedPackets d' es
    | none => []

/-- A write shorter than the sixteen bits of a length, and transfers that `spi_async` accepts. -/
def Allowed : Event → Prop
  | .write _ buf => buf.length < 65528
  | .interrupt accepted => accepted = true
  | .complete accepted _ => accepted = true
  | .read _ => True

/-! ## Writes -/

section Write

variable {k : Kernel} {q : TxQueue} {buf : Bytes}

theorem packetData_lenTot (h : buf.length < 65528) :
    (⟨lenTot buf.length, packetData (lenTot buf.length) buf⟩ : Packet) = userPacket buf := by
  have htot : lenTot buf.length = buf.length + 2 * packetLatency := by
    refine Nat.mod_eq_of_lt ?_
    unfold packetLatency
    omega
  have hroom : lenTot buf.length - (List.replicate packetLatency (0 : UInt8) ++ buf).length =
      packetLatency := by
    rw [htot, List.length_append, List.length_replicate]
    omega
  have hmin : min packetLatency (lenTot buf.length) = packetLatency := by
    rw [htot]
    omega
  unfold userPacket packetData
  rw [← List.append_assoc, List.take_append, hroom, List.take_replicate, hmin, htot,
    List.take_of_length_le (by rw [List.length_append, List.length_replicate]; omega)]

/-- A write that fails leaves the queue. -/
theorem packetWrite_error {e : Errno} (h : (packetWrite k q buf).2 = .error e) :
    (packetWrite k q buf).1 = q := by
  unfold packetWrite at h ⊢
  split_ifs at h ⊢
  all_goals rfl

/-- A write that succeeds adds its packet to the queue, and there is room for it. -/
theorem packetWrite_ok {n : ℕ} (hbuf : buf.length < 65528) (hq : q.len ≤ maxTxQueueLen)
    (h : (packetWrite k q buf).2 = .ok n) :
    (packetWrite k q buf).1 = ⟨q.packets ++ [userPacket buf], q.len + (userPacket buf).memory⟩ ∧
      q.len + (userPacket buf).memory ≤ maxTxQueueLen := by
  have hlen : (userPacket buf).len = lenTot buf.length := by rw [← packetData_lenTot hbuf]
  unfold packetWrite at h ⊢
  split_ifs at h ⊢ with hcheck halloc hcopy
  · have hroom : q.len + (userPacket buf).memory ≤ maxTxQueueLen := by
      have hnot : ¬ Unavailable q (lenTot buf.length) := fun hun => hcheck (.inl hun)
      unfold Unavailable maxTxQueueLen sizeRange at *
      unfold Packet.memory
      omega
    have hmod : (q.len + (lenTot buf.length + sizeofPacket)) % sizeRange =
        q.len + (userPacket buf).memory := by
      unfold Packet.memory at hroom ⊢
      unfold maxTxQueueLen at hroom
      unfold sizeRange
      rw [hlen] at hroom ⊢
      exact Nat.mod_eq_of_lt (by omega)
    rw [hmod, packetData_lenTot hbuf]
    exact ⟨rfl, hroom⟩

end Write

/-! ## The counter -/

theorem sum_memory_append (l l' : List Packet) : ((l ++ l').map Packet.memory).sum =
    (l.map Packet.memory).sum + (l'.map Packet.memory).sum := by
  rw [List.map_append, List.sum_append]

theorem sum_memory_singleton (p : Packet) : ([p].map Packet.memory).sum = p.memory := by
  rw [List.map_singleton, List.sum_singleton]

/-- The counter is the memory of the packets queued or in transmission, there is a limit to it, and
an idle driver has nothing in transmission. -/
structure Accounted (d : SpiData) : Prop where
  len : d.queue.len = memory d
  le : d.queue.len ≤ maxTxQueueLen
  idle : d.busy = false → d.tx = none

theorem accounted_init : Accounted .init := ⟨rfl, Nat.zero_le _, fun _ => rfl⟩

section Steps

variable {d d' : SpiData} {e : Event}

theorem memory_congr (hpackets : d'.queue.packets = d.queue.packets) (htx : d'.tx = d.tx) :
    memory d' = memory d := by
  unfold memory
  rw [hpackets, htx]

theorem Accounted.congr (hd : Accounted d) (hqueue : d'.queue = d.queue) (htx : d'.tx = d.tx)
    (hbusy : d'.busy = d.busy) : Accounted d' where
  len := by rw [hqueue, hd.len, memory_congr (congrArg TxQueue.packets hqueue) htx]
  le := hqueue ▸ hd.le
  idle hfalse := htx.trans (hd.idle (hbusy.symm.trans hfalse))

/-- A write raises the counter by the memory of its packet. -/
theorem accounted_write {k : Kernel} {buf : Bytes} (hd : Accounted d)
    (hbuf : buf.length < 65528) :
    Accounted { d with queue := (packetWrite k d.queue buf).1 } := by
  cases hres : (packetWrite k d.queue buf).2 with
  | error e =>
    rw [packetWrite_error hres]
    exact hd
  | ok n =>
    obtain ⟨hqueue, hroom⟩ := packetWrite_ok hbuf hd.le hres
    rw [hqueue]
    refine ⟨?_, hroom, hd.idle⟩
    show d.queue.len + (userPacket buf).memory =
      ((d.queue.packets ++ [userPacket buf] ++ d.tx.toList).map Packet.memory).sum
    rw [hd.len, memory, sum_memory_append, sum_memory_append, sum_memory_append,
      sum_memory_singleton]
    omega

/-- An interrupt moves the first packet from the queue to the transfer. -/
theorem accounted_interrupt (accepted : Bool) (hd : Accounted d) :
    Accounted (interruptHandler accepted d) := by
  obtain ⟨⟨packets, len⟩, sync, readLen, payloadLen, apid, readPtr, header, tx, rx, busy⟩ := d
  cases busy with
  | true => exact hd
  | false =>
    obtain rfl : tx = none := hd.idle rfl
    have hlen := hd.len
    cases packets with
    | nil => exact ⟨hlen, hd.le, fun _ => rfl⟩
    | cons p packets =>
      refine ⟨?_, hd.le, fun hfalse => absurd hfalse (by simp [interruptHandler, spiDataInit,
        spiXfer])⟩
      show len = ((packets ++ [p]).map Packet.memory).sum
      have hall : len = (([p] ++ packets ++ []).map Packet.memory).sum := hlen
      rw [List.append_nil, sum_memory_append, sum_memory_singleton] at hall
      rw [sum_memory_append, sum_memory_singleton]
      omega

/-- The end of a transfer lowers the counter by the memory of the packet that it carried. -/
theorem accounted_freeTx (hd : Accounted d) : Accounted (freeTx d) ∧ (freeTx d).tx = none := by
  obtain ⟨⟨packets, len⟩, sync, readLen, payloadLen, apid, readPtr, header, tx⟩ := d
  cases tx with
  | none => exact ⟨hd, rfl⟩
  | some p =>
    have hlen : len = ((packets ++ [p]).map Packet.memory).sum := hd.len
    have hle : len ≤ maxTxQueueLen := hd.le
    -- the counter has the memory of the packet, so that it does not go below zero
    have hfreed : (2 * sizeRange + len - p.len - sizeofPacket) % sizeRange =
        (packets.map Packet.memory).sum := by
      rw [sum_memory_append, sum_memory_singleton] at hlen
      have hp : p.memory = p.len + sizeofPacket := rfl
      unfold maxTxQueueLen at hle
      unfold sizeRange
      omega
    have hless : (packets.map Packet.memory).sum ≤ len := by
      rw [hlen, sum_memory_append]
      exact Nat.le_add_right _ _
    refine ⟨⟨?_, ?_, fun _ => rfl⟩, rfl⟩
    · show (2 * sizeRange + len - p.len - sizeofPacket) % sizeRange =
        ((packets ++ []).map Packet.memory).sum
      rw [hfreed, List.append_nil]
    · show (2 * sizeRange + len - p.len - sizeofPacket) % sizeRange ≤ maxTxQueueLen
      omega

theorem accounted_complete {accepted : Bool} {bytes : Bytes} {xfer : Xfer} (hd : Accounted d) :
    Accounted (complete accepted bytes xfer d) := by
  have hreceived : Accounted { d with rx := store d.rx xfer.rxBuf bytes, pending := none } :=
    hd.congr rfl rfl rfl
  obtain ⟨hfree, htx⟩ := accounted_freeTx hreceived
  rw [complete_eq]
  have hout := outcome_parse accepted (received d xfer bytes)
  refine ⟨?_, hout.queue ▸ hfree.le, fun _ => hout.tx.trans htx⟩
  rw [hout.queue, memory_congr (congrArg TxQueue.packets hout.queue) hout.tx]
  exact hfree.len

/-- **Every step keeps the counter.** -/
theorem accounted_step (hd : Accounted d) (he : Allowed e) (h : step d e = some d') :
    Accounted d' := by
  cases e with
  | write k buf =>
    obtain rfl := Option.some.inj h
    exact accounted_write hd he
  | interrupt accepted =>
    obtain rfl := Option.some.inj h
    exact accounted_interrupt accepted hd
  | complete accepted bytes =>
    obtain ⟨xfer, -, -, rfl⟩ := step_complete h
    exact accounted_complete hd
  | read len =>
    obtain ⟨-, rfl⟩ := step_read h
    exact hd.congr rfl rfl rfl

end Steps

/-! ## The order of transmission -/

/-- The queue of the driver, with what it has served. -/
def fifo (d : SpiData) : Fifo Packet := ⟨d.queue.packets, transmitted d⟩

/-- An event that begins a transaction. -/
def Begins (d : SpiData) : Event → Prop
  | .interrupt _ => d.busy = false
  | _ => False

instance (d : SpiData) : (e : Event) → Decidable (Begins d e)
  | .write _ _ => inferInstanceAs (Decidable False)
  | .interrupt _ => inferInstanceAs (Decidable (d.busy = false))
  | .complete _ _ => inferInstanceAs (Decidable False)
  | .read _ => inferInstanceAs (Decidable False)

/-- The number of transactions that a run begins. -/
def begun : SpiData → List Event → ℕ
  | _, [] => 0
  | d, e :: es => (if Begins d e then 1 else 0) +
    match step d e with
    | some d' => begun d' es
    | none => 0

section Order

variable {d d' : SpiData} {e : Event}

/-- The first transfer of a transaction carries the first packet of the queue. -/
theorem fifo_interrupt (accepted : Bool) (hbusy : d.busy = false) :
    fifo (interruptHandler accepted d) = (fifo d).serve := by
  obtain ⟨⟨packets, len⟩, sync, readLen, payloadLen, apid, readPtr, header, tx, rx, busy⟩ := d
  obtain rfl : busy = false := hbusy
  cases packets with
  | nil =>
    show (⟨[], List.filterMap Xfer.packet (_ ++ [_])⟩ : Fifo Packet) = ⟨[], _⟩
    rw [List.filterMap_append]
    exact congrArg (Fifo.mk []) (List.append_nil _)
  | cons p packets =>
    show (⟨packets, List.filterMap Xfer.packet (_ ++ [_])⟩ : Fifo Packet) = ⟨packets, _⟩
    rw [List.filterMap_append]
    rfl

/-- No later transfer carries a packet. -/
theorem fifo_complete {accepted : Bool} {bytes : Bytes} {xfer : Xfer} :
    fifo (complete accepted bytes xfer d) = fifo d := by
  have hout := outcome_parse accepted (received d xfer bytes)
  have htx : (received d xfer bytes).tx = none := by
    unfold received freeTx
    split
    · rfl
    · next h => exact h
  have hfree : fifo (received d xfer bytes) = fifo d := by
    obtain ⟨len, hfree⟩ := freeTx_eq { d with rx := store d.rx xfer.rxBuf bytes, pending := none }
    unfold received
    rw [hfree]
    rfl
  rw [complete_eq, ← hfree]
  unfold fifo transmitted
  rw [hout.queue]
  rcases hout.ends_or_asks with ⟨-, hxfers, -⟩ | ⟨x, hbuf, -, hxfers, -⟩
  · rw [hxfers]
  · have hnone : Xfer.packet x = none := by rw [Xfer.packet, hbuf, htx]; rfl
    rw [hxfers, List.filterMap_append, List.filterMap_cons, hnone, List.filterMap_nil,
      List.append_nil]

/-- **Every step lets the accepted packet join, and serves the first one when it begins a
transaction.** -/
theorem fifo_step (hd : Accounted d) (he : Allowed e) (h : step d e = some d') :
    fifo d' = if Begins d e then (fifo d).serve else (fifo d).join (acceptedBy d e) := by
  have hjoin : (fifo d).join [] = fifo d := congrArg (Fifo.mk · _) (List.append_nil _)
  cases e with
  | write k buf =>
    obtain rfl := Option.some.inj h
    rw [if_neg (show ¬ Begins d (.write k buf) from id), acceptedBy]
    cases hres : (packetWrite k d.queue buf).2 with
    | error e =>
      rw [packetWrite_error hres]
      exact hjoin.symm
    | ok n =>
      rw [(packetWrite_ok he hd.le hres).1]
      rfl
  | interrupt accepted =>
    obtain rfl := Option.some.inj h
    by_cases hbusy : d.busy = false
    · rw [if_pos (show Begins d (.interrupt accepted) from hbusy), fifo_interrupt accepted hbusy]
    · rw [if_neg (show ¬ Begins d (.interrupt accepted) from hbusy), interruptHandler, if_neg hbusy]
      exact hjoin.symm
  | complete accepted bytes =>
    obtain ⟨xfer, -, -, rfl⟩ := step_complete h
    rw [if_neg (show ¬ Begins d (.complete accepted bytes) from id), fifo_complete]
    exact hjoin.symm
  | read len =>
    obtain ⟨-, rfl⟩ := step_read h
    exact hjoin.symm

/-- What was transmitted and what waits grows by the accepted packets. -/
theorem transmitted_append_packets_step (hd : Accounted d) (he : Allowed e)
    (h : step d e = some d') : transmitted d' ++ d'.queue.packets =
      transmitted d ++ d.queue.packets ++ acceptedBy d e := by
  show (fifo d').served ++ (fifo d').waiting = (fifo d).served ++ (fifo d).waiting ++ _
  rw [fifo_step hd he h]
  by_cases hbegins : Begins d e
  · have hnone : acceptedBy d e = [] := by
      cases e <;> first | rfl | exact hbegins.elim
    rw [if_pos hbegins, Fifo.served_append_waiting_serve, hnone, List.append_nil]
  · rw [if_neg hbegins, Fifo.served_append_waiting_join]

theorem accounted_run_of {es : List Event} (hd : Accounted d) (hes : ∀ e ∈ es, Allowed e)
    (h : run d es = some d') : Accounted d' ∧ transmitted d' ++ d'.queue.packets =
      transmitted d ++ d.queue.packets ++ acceptedPackets d es := by
  induction es generalizing d with
  | nil =>
    obtain rfl := Option.some.inj h
    exact ⟨hd, (List.append_nil _).symm⟩
  | cons e es ih =>
    rw [run_cons] at h
    obtain ⟨d₁, hstep, hrun⟩ := Option.bind_eq_some_iff.mp h
    have he := hes e List.mem_cons_self
    obtain ⟨hd', hall⟩ := ih (accounted_step hd he hstep)
      (fun e' he' => hes e' (List.mem_cons_of_mem _ he')) hrun
    refine ⟨hd', ?_⟩
    rw [hall, transmitted_append_packets_step hd he hstep, acceptedPackets, hstep,
      List.append_assoc]

/-- With each transaction that begins one more packet is transmitted, if one waits. -/
theorem length_transmitted_step (hd : Accounted d) (he : Allowed e) (h : step d e = some d') :
    min ((transmitted d).length + if Begins d e then 1 else 0)
      (transmitted d ++ d.queue.packets).length ≤ (transmitted d').length := by
  show _ ≤ (fifo d').served.length
  rw [fifo_step hd he h]
  by_cases hbegins : Begins d e
  · rw [if_pos hbegins, if_pos hbegins, Fifo.length_served_serve]
    exact le_refl _
  · rw [if_neg hbegins, if_neg hbegins]
    exact Nat.min_le_left _ _

/-- A run that begins as many transactions as packets wait transmits all of them. -/
theorem length_transmitted_run {es : List Event} (hd : Accounted d) (hes : ∀ e ∈ es, Allowed e)
    (h : run d es = some d') :
    min ((transmitted d).length + begun d es) (transmitted d ++ d.queue.packets).length ≤
      (transmitted d').length := by
  induction es generalizing d with
  | nil =>
    obtain rfl := Option.some.inj h
    exact Nat.min_le_left _ _
  | cons e es ih =>
    rw [run_cons] at h
    obtain ⟨d₁, hstep, hrun⟩ := Option.bind_eq_some_iff.mp h
    have he := hes e List.mem_cons_self
    have hrest := ih (accounted_step hd he hstep)
      (fun e' he' => hes e' (List.mem_cons_of_mem _ he')) hrun
    have hfirst := length_transmitted_step hd he hstep
    have hall := congrArg List.length (transmitted_append_packets_step hd he hstep)
    simp only [begun, hstep, List.length_append] at hall hrest hfirst ⊢
    omega

end Order

/-- **In every run the counter is the memory of the packets queued or in transmission, within its
limit; a write that fails changes nothing; and the packets that were accepted are transmitted once
and in order**, one with each transaction. -/
theorem accounted_run {es : List Event} {d : SpiData} (hes : ∀ e ∈ es, Allowed e)
    (h : run .init es = some d) :
    d.queue.len = memory d ∧ d.queue.len ≤ maxTxQueueLen ∧
    (∀ k buf errno, (packetWrite k d.queue buf).2 = .error errno →
      (packetWrite k d.queue buf).1 = d.queue) ∧
    acceptedPackets .init es = transmitted d ++ d.queue.packets ∧
    ∀ es' d', (∀ e ∈ es', Allowed e) → run d es' = some d' →
      min ((transmitted d).length + begun d es') (acceptedPackets .init es).length ≤
        (transmitted d').length := by
  obtain ⟨hd, hall⟩ := accounted_run_of accounted_init hes h
  refine ⟨hd.len, hd.le, fun k buf errno => packetWrite_error, hall.symm, ?_⟩
  intro es' d' hes' hrun
  have hlater := length_transmitted_run hd hes' hrun
  rwa [hall] at hlater

/-- A packet of one byte, that the first interrupt transmits. -/
theorem accounted_run_example :
    acceptedPackets .init [.write .working [7], .interrupt true] =
      transmitted (interruptHandler true
        { SpiData.init with queue := (packetWrite .working .empty [7]).1 }) ++ [] :=
  (accounted_run (show ∀ e ∈ [Event.write .working [7], .interrupt true], Allowed e by
    simp [Allowed]) rfl).2.2.2.1

end ClickA.Driver
