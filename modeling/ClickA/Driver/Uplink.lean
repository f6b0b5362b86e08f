import ClickA.Bus.Uplink
import ClickA.Driver.Delivery
import ClickA.Stream.Framing

/-!
# From the driver to the commands

The depacketizer reads the fifo of the driver, and finds one packet after the other there. It stays
in step with them as long as it reads the lengths of their headers as the driver does; then each
command that the other side sends is passed on once, and in order.

## Main definitions

* `RxPacket.packet`: a packet without its marker
* `RxPacket.InStep`: the depacketizer reads its length as the driver does
* `commands`, `reports`: what the depacketizer sends for packets

## Main results

* `cut_rxPackets_iff`: the depacketizer cuts the stream where the packets end
* `run_cut`: what it sends for the packets that it cuts
* `uplinked_run`: so it is for the packets of every run of the driver
-/

namespace ClickA.Bus

open Python Stream Options Depacketizer

/-! ## Runs of the depacketizer -/

/-- The commands for packets. -/
def commands (ps : List Bytes) : List Bytes :=
  (ps.filter fun p => CrcValid p ∧ flagOf p = 0b11).map rxCommand

/-- The report of a packet with a wrong CRC, as it is sent. -/
def crcReport (p : Bytes) : Bytes :=
  leBytes 2 errDpktCrcInvalid ++ (leBytes 2 (p.length + 2) ++ (be16 p.length ++ p))

/-- The reports for packets. -/
def reports (ps : List Bytes) : List Bytes := (ps.filter fun p => ¬ CrcValid p).map crcReport

section Run

variable {d : Depacketizer} {p : Bytes} {ps : List Bytes} {rest : Bytes}

/-- What a packet that raises nothing is answered with. -/
theorem receive_eq (h : Harmless p) : receive d p = .ok { d with
    rxCmdSocket := d.rxCmdSocket ++ commands [p], txSocket := d.txSocket ++ reports [p] } := by
  unfold Harmless at h
  unfold receive commands reports
  by_cases hc : CrcValid p
  · rw [if_pos hc] at h
    rw [if_pos hc, if_neg h.1]
    by_cases h3 : flagOf p = 0b11
    · simp [hc, h3, Nat.not_lt.mpr (h.2 h3)]
    · simp [hc, h3]
  · rw [if_neg hc] at h
    have hlen : (be16 p.length ++ p).length < 2 ^ 16 := by
      rw [List.length_append, length_be16]
      omega
    have hsum : 2 + p.length = p.length + 2 := Nat.add_comm _ _
    rw [if_neg hc, TxPacket.encode_eq (by decide) hlen]
    simp [hc, crcReport, pure_eq_ok, hsum]

/-- An iteration for each packet of the stream. -/
theorem run_cut (hd : Idle d) (hcut : cut nextPacket ps.length d.spi = (ps, rest))
    (hps : ∀ p ∈ ps, Harmless p) : run ps.length d = .ok { d with
      spi := rest
      rxCmdSocket := d.rxCmdSocket ++ commands ps
      txSocket := d.txSocket ++ reports ps } := by
  induction ps generalizing d with
  | nil =>
    obtain rfl : d.spi = rest := congrArg Prod.snd hcut
    simp [run, commands, reports]
  | cons p ps ih =>
    cases hnext : nextPacket d.spi with
    | none =>
      rw [List.length_cons, cut_succ_of_none hnext] at hcut
      exact absurd (congrArg Prod.fst hcut) (List.cons_ne_nil _ _).symm
    | some next =>
      obtain ⟨q, spi⟩ := next
      rw [List.length_cons, cut_succ_of_some hnext] at hcut
      obtain ⟨hhead, hrest⟩ := Prod.mk.inj hcut
      obtain ⟨rfl, htail⟩ := List.cons.inj hhead
      have hrec := receive_eq (d := { d with spi := spi }) (hps q List.mem_cons_self)
      have hit : iteration d = raising (receive { d with spi := spi } q) := by
        rw [iteration_eq hd, hnext]
      rw [hrec, raising_ok] at hit
      rw [List.length_cons, run, hit, ok_bind,
        ih (hd.of_iteration hit) (Prod.ext htail hrest) fun p hp =>
          hps p (List.mem_cons_of_mem q hp)]
      simp only [commands, reports, List.append_assoc, ← List.map_append, ← List.filter_append,
        List.singleton_append]

end Run

end ClickA.Bus

namespace ClickA.Driver

open Python (Bytes)
open Stream
open Bus Depacketizer

/-! ## Packets of the fifo -/

namespace RxPacket

variable (p : RxPacket)

/-- A packet without its marker. -/
def packet : Bytes := p.bytes.drop packetSyncLen

/-- The depacketizer reads the length of the packet as the driver does: the carry of the low byte
is not lost. -/
def InStep : Prop := p.payloadLen % 512 ≠ 0

instance : Decidable p.InStep := inferInstanceAs (Decidable (_ ≠ _))

theorem bytes_eq : p.bytes = ccsdsSync ++ p.packet := by
  rw [packet, ← p.marker, List.take_append_drop]

theorem length_packet : p.packet.length = packetHeaderLen + p.payloadLen := by
  rw [packet, List.length_drop, p.length_eq]
  unfold payloadLen packetOverhead
  omega

/-- The length field that the depacketizer reads. -/
theorem field16_packet : field16 p.packet pktLenIndex + 1 = p.payloadLen := by
  have hoctet : ∀ i, octet p.packet i = (byteOf p.bytes (packetSyncLen + i)).toNat := by
    intro i
    rw [octet, packet, List.getElem?_drop, byteOf]
  have hfield : headerPayloadLen (byteOf p.bytes) packetSyncLen =
      (field16 p.packet pktLenIndex + 1) % 2 ^ 16 := by
    unfold headerPayloadLen
    rw [field16, hoctet, hoctet, Stream.shiftLeft_or _ (UInt8.toNat_lt _)]
    rfl
  have hlt := field16_lt p.packet pktLenIndex
  have hpos := p.valid.1
  unfold payloadLen
  rw [hfield] at hpos ⊢
  -- the driver refuses the length that wraps to zero
  rcases Nat.lt_or_ge (field16 p.packet pktLenIndex + 1) (2 ^ 16) with h | h
  · rw [Nat.mod_eq_of_lt h]
  · obtain h : field16 p.packet pktLenIndex + 1 = 2 ^ 16 := by omega
    rw [h] at hpos
    exact absurd hpos (by decide)

/-- The depacketizer reads the packet to its end exactly when it is in step. -/
theorem framed_packet_iff : Framed p.packet ↔ p.InStep := by
  have hfield := p.field16_packet
  rw [Framed, length_packet, bodyLen, InStep]
  unfold packetHeaderLen ccsdsHeaderLen
  split_ifs <;> omega

theorem takes_packet {p : RxPacket} (h : p.InStep) : Takes nextPacket bytes packet p := by
  intro rest
  refine nextPacket_eq_some_iff.mpr ⟨ccsdsSync, ?_, firstEnd_self _, p.framed_packet_iff.mpr h⟩
  rw [bytes_eq, List.append_assoc]

theorem inStep_of_nextPacket {p : RxPacket} {rest b s : Bytes}
    (h : nextPacket (p.bytes ++ rest) = some (b, s)) (hb : b = p.packet) : p.InStep := by
  obtain ⟨-, -, -, hframed⟩ := nextPacket_eq_some_iff.mp h
  rw [hb] at hframed
  exact p.framed_packet_iff.mp hframed

end RxPacket

/-- **The depacketizer cuts the stream of packets where they end exactly when each is in step.** -/
theorem cut_rxPackets_iff (ps : List RxPacket) (rest : Bytes) :
    cut nextPacket ps.length (ps.flatMap RxPacket.bytes ++ rest) =
      (ps.map RxPacket.packet, rest) ↔ ∀ p ∈ ps, p.InStep :=
  cut_flatMap_iff (fun _ h => RxPacket.takes_packet h)
    (fun _ _ _ _ h hb => RxPacket.inStep_of_nextPacket h hb) ps rest

/-- **In every run of the driver, the depacketizer finds the packets that were copied exactly when
it reads their lengths as the driver does. If none of them raises an exception, it sends the command
of each valid standalone packet, and the report of each packet with a wrong CRC, once and in
order.** -/
theorem uplinked_run {es : List Event} {d : SpiData} (h : run .init es = some d) :
    ∃ ps : List RxPacket, ps.map RxPacket.payloadLen = d.copies.map Prod.snd ∧
      (cut nextPacket ps.length (delivered .init es ++ d.rxFifo) = (ps.map RxPacket.packet, []) ↔
        ∀ p ∈ ps, p.InStep) ∧
      ((∀ p ∈ ps, p.InStep ∧ Harmless p.packet) →
        Depacketizer.run ps.length (Depacketizer.init (delivered .init es ++ d.rxFifo)) = .ok
          { spi := []
            busPktsBuffer := []
            ipcPktsBuffer := []
            rxCmdSocket := commands (ps.map RxPacket.packet)
            txSocket := reports (ps.map RxPacket.packet) }) := by
  obtain ⟨ps, hps, hlen⟩ := (delivers_run delivers_init h).whole
  rw [List.nil_append] at hps
  have hcut := cut_rxPackets_iff ps []
  rw [List.append_nil, ← hps] at hcut
  refine ⟨ps, hlen, hcut, fun hall => ?_⟩
  have hcut : cut nextPacket (ps.map RxPacket.packet).length
      (Depacketizer.init (delivered .init es ++ d.rxFifo)).spi =
        (ps.map RxPacket.packet, []) := by
    rw [List.length_map]
    exact hcut.mpr fun p hp => (hall p hp).1
  have hrun := run_cut (idle_init _) hcut (List.forall_mem_map.mpr fun p hp => (hall p hp).2)
  rw [List.length_map] at hrun
  simpa [Depacketizer.init] using hrun

theorem uplinked_run_arrival : ∃ d : SpiData,
    run .init [.interrupt true, .complete true arrival] = some d ∧
    ∃ ps : List RxPacket, ps.map RxPacket.payloadLen = d.copies.map Prod.snd ∧
      (cut nextPacket ps.length
          (delivered .init [.interrupt true, .complete true arrival] ++ d.rxFifo) =
        (ps.map RxPacket.packet, []) ↔ ∀ p ∈ ps, p.InStep) ∧
      ((∀ p ∈ ps, p.InStep ∧ Harmless p.packet) →
        Depacketizer.run ps.length (Depacketizer.init
          (delivered .init [.interrupt true, .complete true arrival] ++ d.rxFifo)) = .ok
          { spi := []
            busPktsBuffer := []
            ipcPktsBuffer := []
            rxCmdSocket := commands (ps.map RxPacket.packet)
            txSocket := reports (ps.map RxPacket.packet) }) :=
  ⟨_, run_arrival, uplinked_run run_arrival⟩

end ClickA.Driver
