import ClickA.Bus.Depacketizer

/-!
# Commands from the bus

The depacketizer against the packets of the bus: which packets it decodes, what it does with a
command in several segments, and which streams it survives.

## Main definitions

* `Decoded`: one pass turns a packet of the stream into its command
* `Reassembled`: a command in segments among standalone ones comes out whole
* `packets`, `Harmless`: the packets of a stream, and those that raise no exception

## Main results

* `framed_packet_iff`, `crcValid_packet`: what the code makes of a packet from the bus
* `decoded_iff`: a packet is decoded when the APID has ten bits and the length field has no carry
* `not_reassembled`: the first segment of a command ends the process
* `run_firstBytes_not_raised_iff`: the process survives the streams of harmless packets
-/

namespace ClickA.Bus

open Python Stream Options Depacketizer

/-! ## What the code reads from a packet of the bus -/

namespace Telecommand

variable (c : Telecommand)

theorem field16_packet_zero : field16 c.packet 0 = c.lead.toNat * 2048 + c.apid.toNat := by
  have h₁ := c.lead.isLt
  have h₂ := c.apid.isLt
  rw [packet_eq, field16_be16 (by omega)]

theorem field16_packet_two :
    field16 c.packet 2 = c.grouping.flag * 16384 + c.seqCnt.toNat := by
  have h₁ := c.grouping.flag_lt
  have h₂ := c.seqCnt.isLt
  rw [packet_eq, field16_be16_succ, field16_be16 (by omega)]

theorem field16_packet_four : field16 c.packet pktLenIndex = c.data.length + 7 := by
  have h := c.fits
  rw [packet_eq, pktLenIndex, field16_be16_succ, field16_be16_succ, lengthField_eq,
    field16_be16 h]

theorem flagOf_packet : flagOf c.packet = c.grouping.flag := by
  have h := c.seqCnt.isLt
  rw [flagOf, octet_of_field16, field16_packet_two]
  omega

/-- The top bit of the APID is masked away. -/
theorem apidOf_packet : apidOf c.packet = c.apid.toNat % 1024 := by
  have h : field16 c.packet 0 % 1024 = apidOf c.packet := by
    have h₁ := octet_lt c.packet 1
    rw [field16, apidOf, Nat.zero_add]
    omega
  rw [← h, field16_packet_zero]
  omega

theorem tsSecOf_packet : tsSecOf c.packet = c.tsSec.toNat := by
  have h := c.tsSec.isLt
  have h₁ : field16 c.packet 6 = c.tsSec.toNat / 65536 := by
    rw [packet_eq]
    simp only [field16_be16_succ]
    rw [field16_be16 (by omega)]
  have h₂ : field16 c.packet 8 = c.tsSec.toNat % 65536 := by
    rw [packet_eq]
    simp only [field16_be16_succ]
    rw [field16_be16 (by omega)]
  rw [tsSecOf, h₁, h₂]
  omega

theorem octet_packet_ten : octet c.packet 10 = c.tsSubsec.toNat := by
  rw [packet_eq]
  simp only [octet_be16_succ]
  rfl

theorem take_packet : c.packet.take (c.packet.length - 2) = c.body := by
  have hlen : c.packet.length - 2 = c.body.length := by
    rw [length_packet, length_body]
    omega
  rw [hlen, packet, List.take_left]

theorem dataOf_packet : dataOf c.packet = c.data := by
  rw [dataOf, take_packet, body, ← List.append_assoc]
  exact List.drop_left' (by simp)

theorem crcValid_packet : CrcValid c.packet := crcValid_append c.body

/-- The code reads the whole packet unless the length field has a carry that is lost. -/
theorem framed_packet_iff : Framed c.packet ↔ (c.data.length + 8) % 512 ≠ 0 := by
  rw [Framed, length_packet, field16_packet_four, bodyLen, ccsdsHeaderLen]
  split_ifs <;> omega

/-- The packet of a frame is acquired to its last byte when it is framed, and only then. -/
theorem nextPacket_frame_iff {pre p r : Bytes} (hpre : ¬ ccsdsSync <:+: pre) :
    nextPacket (pre ++ (c.frame ++ r)) = some (p, r) ↔ p = c.packet ∧ Framed c.packet := by
  have hfirst : FirstEnd ccsdsSync (pre ++ ccsdsSync) := firstEnd_append ccsdsSync_head hpre
  have happ : pre ++ (c.frame ++ r) = (pre ++ ccsdsSync) ++ (c.packet ++ r) := by
    simp [frame]
  rw [nextPacket_eq_some_iff, happ]
  constructor
  · rintro ⟨pre', heq, hpre', hp⟩
    obtain rfl := hfirst.eq_of_append hpre' heq
    obtain rfl := List.append_cancel_right (List.append_cancel_left heq)
    exact ⟨rfl, hp⟩
  · rintro ⟨rfl, hp⟩
    exact ⟨_, rfl, hfirst, hp⟩

end Telecommand

/-! ## One packet -/

section OnePacket

/-- `acquire_bus_pkt`, then `handle_bus_pkts`. -/
def pass (d : Depacketizer) : Except Stop Depacketizer := do
  let d ← acquireBusPkt d
  raising (handleBusPkts d)

/-- The command packet has the APID and the time of the packet from the bus, and this payload. -/
def Conveys (raw : Bytes) (c : Telecommand) (payload : Bytes) : Prop :=
  RxCommandPacket.decode raw = .ok (c.apid.toNat, c.tsSec.toNat, c.tsSubsec.toNat, payload)

/-- One pass takes the packet from the stream, up to its last byte, and passes it on as one
command. -/
def Decoded (d : Depacketizer) (c : Telecommand) (rest : Bytes) : Prop :=
  ∃ raw, pass d = .ok { d with spi := rest, ipcPktsBuffer := d.ipcPktsBuffer ++ [raw] } ∧
    Conveys raw c c.data

variable {d d' : Depacketizer} {c : Telecommand} {pre rest : Bytes}

/-- A pass that ends has acquired one packet. -/
theorem nextPacket_of_pass (hd : d.busPktsBuffer = []) (h : pass d = .ok d') :
    ∃ p, nextPacket d.spi = some (p, d'.spi) := by
  rw [pass, acquireBusPkt_eq] at h
  cases hnext : nextPacket d.spi with
  | none => simp [hnext] at h
  | some pr =>
    obtain ⟨p, rest⟩ := pr
    obtain ⟨-, -, -, hp⟩ := nextPacket_eq_some_iff.mp hnext
    suffices hspi : d'.spi = rest from ⟨p, by rw [hspi]⟩
    simp only [hnext, file] at h
    split_ifs at h with hc
    · simp only [raising_ok, ok_bind, hd, List.nil_append,
        handleBusPkts_singleton (d := { d with spi := rest }) hp] at h
      split_ifs at h with h3 hlen h1
      · simp at h
      · obtain rfl := Except.ok.inj h
        rfl
      · simp at h
      · obtain rfl := Except.ok.inj h
        rfl
    · cases henc : TxPacket.encode errDpktCrcInvalid (be16 p.length ++ p) with
      | error e => simp [henc] at h
      | ok raw =>
        simp only [henc, ok_bind, pure_eq_ok, raising_ok] at h
        rw [handleBusPkts_nil (by exact hd)] at h
        obtain rfl := Except.ok.inj h
        rfl

theorem pass_frame (hd : d.busPktsBuffer = []) (hpre : ¬ ccsdsSync <:+: pre)
    (hspi : d.spi = pre ++ (c.frame ++ rest)) (hc : c.grouping = .standalone)
    (hp : Framed c.packet) : pass d = .ok { d with
      spi := rest, ipcPktsBuffer := d.ipcPktsBuffer ++ [rxCommand c.packet] } := by
  have hnext : nextPacket d.spi = some (c.packet, rest) := by
    rw [hspi, c.nextPacket_frame_iff hpre]
    exact ⟨rfl, hp⟩
  have hflag : flagOf c.packet = 0b11 := by rw [c.flagOf_packet, hc]; rfl
  have hlen : ¬ c.packet.length < 11 := by rw [c.length_packet]; omega
  rw [pass, acquireBusPkt_eq, hnext]
  simp only [file, if_pos c.crcValid_packet, raising_ok, ok_bind, hd, List.nil_append,
    handleBusPkts_singleton (d := { d with spi := rest }) hp, if_pos hflag, if_neg hlen]

theorem decode_rxCommand_packet (hp : Framed c.packet) :
    RxCommandPacket.decode (rxCommand c.packet) =
      .ok (c.apid.toNat % 1024, c.tsSec.toNat, c.tsSubsec.toNat, c.data) := by
  rw [decode_rxCommand hp, c.apidOf_packet, c.tsSecOf_packet, c.octet_packet_ten, c.dataOf_packet]

theorem Decoded.framed (hd : d.busPktsBuffer = []) (hpre : ¬ ccsdsSync <:+: pre)
    (hspi : d.spi = pre ++ (c.frame ++ rest)) (h : Decoded d c rest) : Framed c.packet := by
  obtain ⟨raw, hpass, -⟩ := h
  obtain ⟨p, hnext⟩ := nextPacket_of_pass hd hpass
  rw [hspi] at hnext
  exact ((c.nextPacket_frame_iff hpre).mp hnext).2

theorem decoded_of_framed_iff (hd : d.busPktsBuffer = []) (hpre : ¬ ccsdsSync <:+: pre)
    (hspi : d.spi = pre ++ (c.frame ++ rest)) (hc : c.grouping = .standalone)
    (hp : Framed c.packet) : Decoded d c rest ↔ c.apid.toNat < 1024 := by
  have hpass := pass_frame hd hpre hspi hc hp
  have hdec := decode_rxCommand_packet hp
  constructor
  · rintro ⟨raw, hok, hraw⟩
    rw [hpass] at hok
    obtain rfl : rxCommand c.packet = raw := by simpa using hok
    rw [Conveys, hdec] at hraw
    have hapid := congrArg Prod.fst (Except.ok.inj hraw)
    dsimp only at hapid
    omega
  · intro hapid
    exact ⟨_, hpass, by rw [Conveys, hdec, Nat.mod_eq_of_lt hapid]⟩

/-- **A standalone packet is decoded when its APID has ten bits and the length that is read from
its header loses no carry.** -/
theorem decoded_iff (hd : d.busPktsBuffer = []) (hpre : ¬ ccsdsSync <:+: pre)
    (hspi : d.spi = pre ++ (c.frame ++ rest)) (hc : c.grouping = .standalone) :
    Decoded d c rest ↔ c.apid.toNat < 1024 ∧ (c.data.length + 8) % 512 ≠ 0 := by
  rw [← c.framed_packet_iff]
  constructor
  · intro h
    have hp := h.framed hd hpre hspi
    exact ⟨(decoded_of_framed_iff hd hpre hspi hc hp).mp h, hp⟩
  · rintro ⟨hapid, hp⟩
    exact (decoded_of_framed_iff hd hpre hspi hc hp).mpr hapid

/-- A standalone packet with an APID and data. -/
def standalone (apid : BitVec 11) (data : Bytes) (fits : data.length + 7 < 2 ^ 16) :
    Telecommand where
  lead := 0
  apid := apid
  grouping := .standalone
  seqCnt := 0
  tsSec := 0
  tsSubsec := 0
  spare := 0
  data := data
  fits := fits

theorem spi_init_frame (c : Telecommand) : (init c.frame).spi = [] ++ (c.frame ++ []) := by
  simp [init]

theorem decoded_standalone_example :
    Decoded (init (standalone 0x181 [0x01] (by decide)).frame)
      (standalone 0x181 [0x01] (by decide)) [] := by
  have hpre : ¬ ccsdsSync <:+: [] := by decide
  exact (decoded_iff rfl hpre (spi_init_frame _) rfl).mpr (by decide)

theorem fits_zeros : (List.replicate 504 (0 : UInt8)).length + 7 < 2 ^ 16 := by
  rw [List.length_replicate]
  decide

/-- The top bit of an APID is lost, and a length field of `0x1FF` reads 256 bytes too few. -/
theorem not_decoded_standalone :
    ¬ Decoded (init (standalone 0x400 [] (by decide)).frame) (standalone 0x400 [] (by decide)) [] ∧
      ¬ Decoded (init (standalone 0x181 (List.replicate 504 0) fits_zeros).frame)
        (standalone 0x181 (List.replicate 504 0) fits_zeros) [] := by
  have hpre : ¬ ccsdsSync <:+: [] := by decide
  constructor
  · intro h
    have hp := h.framed rfl hpre (spi_init_frame _)
    exact absurd ((decoded_of_framed_iff rfl hpre (spi_init_frame _) rfl hp).mp h) (by decide)
  · intro h
    have hp := h.framed rfl hpre (spi_init_frame _)
    refine (Telecommand.framed_packet_iff _).mp hp ?_
    rw [standalone, List.length_replicate]

end OnePacket

/-! ## Commands in segments -/

section Segments

/-- The packets arrive one after the other. -/
def frames (cs : List Telecommand) : Bytes := cs.flatMap Telecommand.frame

/-- One iteration acquires the packet, up to its last byte. -/
def ArrivesWhole (c : Telecommand) : Prop :=
  ∀ rest, nextPacket (c.frame ++ rest) = some (c.packet, rest)

theorem arrivesWhole_iff {c : Telecommand} :
    ArrivesWhole c ↔ (c.data.length + 8) % 512 ≠ 0 := by
  have h : ∀ rest, nextPacket (c.frame ++ rest) = some (c.packet, rest) ↔ Framed c.packet := by
    intro rest
    have hpre : ¬ ccsdsSync <:+: [] := by decide
    have h := c.nextPacket_frame_iff hpre (p := c.packet) (r := rest)
    simpa using h
  rw [← c.framed_packet_iff]
  exact ⟨fun hc => (h []).mp (hc []), fun hp rest => (h rest).mpr hp⟩

/-- A command in at least two segments. -/
structure Sequence where
  first : Telecommand
  middle : List Telecommand
  last : Telecommand
  first_grouping : first.grouping = .first
  middle_grouping : ∀ c ∈ middle, c.grouping = .continuation
  last_grouping : last.grouping = .last

namespace Sequence

variable (s : Sequence)

def segments : List Telecommand := s.first :: (s.middle ++ [s.last])

def data : Bytes := s.segments.flatMap Telecommand.data

end Sequence

/-- A command in segments, among standalone ones, comes out whole: no iteration raises, nothing but
standalone commands is sent before the last segment arrives, and in the end every command is sent
once, the standalone ones in order. -/
structure Reassembled (pre : List Telecommand) (s : Sequence) (post : List Telecommand) : Prop where
  early : ∀ n < pre.length + s.segments.length, ∃ d k,
    run n (init (frames (pre ++ s.segments ++ post))) = .ok d ∧
      List.Forall₂ (fun raw c => Conveys raw c c.data) d.rxCmdSocket (pre.take k)
  late : ∀ n ≤ post.length, ∃ d,
    run (pre.length + s.segments.length + n) (init (frames (pre ++ s.segments ++ post))) = .ok d
  sent : ∃ d sent₁ raw sent₂ post₁ post₂,
    run (pre.length + s.segments.length + post.length)
      (init (frames (pre ++ s.segments ++ post))) = .ok d ∧
    d.rxCmdSocket = sent₁ ++ raw :: sent₂ ∧ post = post₁ ++ post₂ ∧
    List.Forall₂ (fun raw c => Conveys raw c c.data) sent₁ (pre ++ post₁) ∧
    Conveys raw s.first s.data ∧
    List.Forall₂ (fun raw c => Conveys raw c c.data) sent₂ post₂

variable {d : Depacketizer} {c : Telecommand} {rest : Bytes}

theorem iteration_standalone (hd : Idle d) (hspi : d.spi = c.frame ++ rest)
    (hc : c.grouping = .standalone) (harr : ArrivesWhole c) :
    iteration d =
      .ok { d with spi := rest, rxCmdSocket := d.rxCmdSocket ++ [rxCommand c.packet] } := by
  have hflag : flagOf c.packet = 0b11 := by rw [c.flagOf_packet, hc]; rfl
  have hlen : ¬ c.packet.length < 11 := by rw [c.length_packet]; omega
  rw [iteration_eq hd, hspi, harr rest]
  simp only [receive, if_pos c.crcValid_packet, if_pos hflag, if_neg hlen, raising_ok]

/-- The completeness scan takes the first segment for the whole command. -/
theorem iteration_first (hd : Idle d) (hspi : d.spi = c.frame ++ rest)
    (hc : c.grouping = .first) (harr : ArrivesWhole c) :
    iteration d = .error (.raised .indexError) := by
  have hflag : flagOf c.packet = 0b01 := by rw [c.flagOf_packet, hc]; rfl
  have h3 : ¬ flagOf c.packet = 0b11 := by rw [hflag]; decide
  rw [iteration_eq hd, hspi, harr rest]
  simp only [receive, if_pos c.crcValid_packet, if_neg h3, if_pos hflag, raising_error]

/-- Standalone packets are sent one by one. -/
theorem run_standalone {cs : List Telecommand} (hd : Idle d) (hspi : d.spi = frames cs ++ rest)
    (hcs : ∀ c ∈ cs, c.grouping = .standalone) (harr : ∀ c ∈ cs, ArrivesWhole c) :
    run cs.length d = .ok { d with
      spi := rest, rxCmdSocket := d.rxCmdSocket ++ cs.map fun c => rxCommand c.packet } := by
  induction cs generalizing d with
  | nil =>
    obtain rfl : d.spi = rest := hspi
    simp [run]
  | cons c cs ih =>
    have hspi' : d.spi = c.frame ++ (frames cs ++ rest) := by simpa [frames] using hspi
    have hit := iteration_standalone hd hspi' (hcs c (by simp)) (harr c (by simp))
    rw [List.length_cons, run, hit, ok_bind]
    rw [ih (hd.of_iteration hit) rfl (fun c hc => hcs c (by simp [hc]))
      (fun c hc => harr c (by simp [hc]))]
    simp

variable {pre post : List Telecommand} {s : Sequence}

/-- The process ends in the iteration that acquires the first segment. -/
theorem run_sequence (hpre : ∀ c ∈ pre, c.grouping = .standalone)
    (harr : ∀ c ∈ pre, ArrivesWhole c) (hfirst : ArrivesWhole s.first) :
    run (pre.length + 1) (init (frames (pre ++ s.segments ++ post))) =
      .error (.raised .indexError) := by
  have hspi : (init (frames (pre ++ s.segments ++ post))).spi =
      frames pre ++ (s.first.frame ++ frames (s.middle ++ s.last :: post)) := by
    simp [init, frames, Sequence.segments]
  have hrun := run_standalone (idle_init _) hspi hpre harr
  rw [run_add, hrun, ok_bind, run, iteration_first ((idle_init _).of_run hrun) rfl
    s.first_grouping hfirst, error_bind]

/-- **No command in segments comes out whole.** -/
theorem not_reassembled (hpre : ∀ c ∈ pre, c.grouping = .standalone)
    (harr : ∀ c ∈ pre ++ s.segments ++ post, ArrivesWhole c) : ¬ Reassembled pre s post := by
  intro h
  have hfirst : s.first ∈ s.segments := by simp [Sequence.segments]
  have hlt : pre.length + 1 < pre.length + s.segments.length := by simp [Sequence.segments]
  obtain ⟨d, k, hrun, -⟩ := h.early _ hlt
  rw [run_sequence hpre (fun c hc => harr c (by simp [hc])) (harr _ (by simp [hfirst]))] at hrun
  exact absurd hrun (by simp)

/-- A command of two bytes in two segments. -/
def twoSegments : Sequence where
  first := { standalone 0x181 [0x01] (by decide) with grouping := .first }
  middle := []
  last := { standalone 0x181 [0x02] (by decide) with grouping := .last }
  first_grouping := rfl
  middle_grouping := by simp
  last_grouping := rfl

theorem arrivesWhole_twoSegments : ∀ c ∈ twoSegments.segments, ArrivesWhole c := by
  simp only [arrivesWhole_iff]
  decide

theorem not_reassembled_example :
    ¬ Reassembled [standalone 0x181 [] (by decide)] twoSegments [] :=
  not_reassembled (by simp [standalone]) (by simp only [arrivesWhole_iff]; decide)

theorem run_twoSegments :
    run 1 (init (frames twoSegments.segments)) = .error (.raised .indexError) ∧
      ¬ Reassembled [] twoSegments [] := by
  have hrun : run 1 (init (frames ([] ++ twoSegments.segments ++ []))) =
      .error (.raised .indexError) :=
    run_sequence (by simp) (by simp) (arrivesWhole_twoSegments _ (by simp [Sequence.segments]))
  refine ⟨by simpa using hrun, fun h => ?_⟩
  obtain ⟨d, k, hok, -⟩ := h.early 1 (by decide)
  rw [hrun] at hok
  exact absurd hok (by simp)

end Segments

/-! ## Any stream -/

section AnyStream

theorem length_lt_of_nextPacket {spi p rest : Bytes} (h : nextPacket spi = some (p, rest)) :
    rest.length < spi.length := by
  obtain ⟨pre, rfl, -, hp⟩ := nextPacket_eq_some_iff.mp h
  have hlt := hp.lt_length
  simp
  omega

/-- The packets of a stream. -/
def packets (spi : Bytes) : List Bytes :=
  match _h : nextPacket spi with
  | none => []
  | some (p, rest) => p :: packets rest
termination_by spi.length
decreasing_by exact length_lt_of_nextPacket _h

theorem packets_of_none {spi : Bytes} (h : nextPacket spi = none) : packets spi = [] := by
  rw [packets]
  split
  · rfl
  · next heq => simp [h] at heq

theorem packets_of_some {spi p rest : Bytes} (h : nextPacket spi = some (p, rest)) :
    packets spi = p :: packets rest := by
  rw [packets]
  split
  · next heq => simp [h] at heq
  · next heq =>
    obtain ⟨rfl, rfl⟩ : _ = p ∧ _ = rest := by simpa [heq] using h
    rfl

/-- A packet that raises no exception: with a right CRC, it is not the first of a sequence, and a
standalone one reaches to the end of the time stamps; with a wrong one, its error report fits. -/
def Harmless (p : Bytes) : Prop :=
  if CrcValid p then flagOf p ≠ 0b01 ∧ (flagOf p = 0b11 → 11 ≤ p.length)
  else p.length + 2 < 2 ^ 16

theorem receive_of_harmless {d : Depacketizer} {p : Bytes} (h : Harmless p) :
    ∃ d', receive d p = .ok d' ∧ d'.spi = d.spi := by
  rw [receive]
  by_cases hc : CrcValid p
  · rw [Harmless, if_pos hc] at h
    rw [if_pos hc, if_neg h.1]
    by_cases h3 : flagOf p = 0b11
    · rw [if_pos h3, if_neg (Nat.not_lt.mpr (h.2 h3))]
      exact ⟨_, rfl, rfl⟩
    · rw [if_neg h3]
      exact ⟨_, rfl, rfl⟩
  · rw [Harmless, if_neg hc] at h
    have hlen : (be16 p.length ++ p).length < 2 ^ 16 := by
      rw [List.length_append, length_be16]
      omega
    rw [if_neg hc, TxPacket.encode_eq (by decide) hlen]
    exact ⟨_, rfl, rfl⟩

theorem receive_of_not_harmless {d : Depacketizer} {p : Bytes} (h : ¬ Harmless p) :
    ∃ e, receive d p = .error e := by
  rw [receive]
  by_cases hc : CrcValid p
  · rw [Harmless, if_pos hc] at h
    rw [if_pos hc]
    by_cases h3 : flagOf p = 0b11
    · have h1 : flagOf p ≠ 0b01 := by rw [h3]; decide
      have hlen : p.length < 11 := Nat.lt_of_not_le fun hle => h ⟨h1, fun _ => hle⟩
      exact ⟨_, by rw [if_pos h3, if_pos hlen]⟩
    · have h1 : flagOf p = 0b01 := by_contra fun h1 => h ⟨h1, fun heq => absurd heq h3⟩
      exact ⟨_, by rw [if_neg h3, if_pos h1]⟩
  · rw [Harmless, if_neg hc] at h
    have hlen : ¬ (be16 p.length ++ p).length < 2 ^ 16 := by
      rw [List.length_append, length_be16]
      omega
    exact ⟨_, by rw [if_neg hc, TxPacket.encode_of_not fun hlt => hlen hlt.2, error_bind]⟩

/-- A run raises nothing exactly when every packet of its stream is harmless. -/
theorem run_not_raised_iff {d : Depacketizer} (hd : Idle d) :
    (∀ n e, run n d ≠ .error (.raised e)) ↔ ∀ p ∈ packets d.spi, Harmless p := by
  generalize hspi : d.spi = spi
  induction spi using packets.induct generalizing d with
  | case1 spi hnone =>
    rw [packets_of_none hnone]
    refine iff_of_true (fun n e => ?_) (by simp)
    cases n with
    | zero => simp [run]
    | succ n => simp [run, iteration_eq hd, hspi, hnone]
  | case2 spi p rest hsome ih =>
    have hit : iteration d = raising (receive { d with spi := rest } p) := by
      rw [iteration_eq hd, hspi, hsome]
    rw [packets_of_some hsome, List.forall_mem_cons]
    by_cases hp : Harmless p
    · obtain ⟨d', hrec, hrest⟩ := receive_of_harmless (d := { d with spi := rest }) hp
      rw [hrec, raising_ok] at hit
      rw [and_iff_right hp, ← ih (hd.of_iteration hit) hrest]
      constructor
      · intro h n e
        have hn := h (n + 1) e
        rwa [run, hit, ok_bind] at hn
      · intro h n e
        cases n with
        | zero => simp [run]
        | succ n =>
          rw [run, hit, ok_bind]
          exact h n e
    · obtain ⟨e, hrec⟩ := receive_of_not_harmless (d := { d with spi := rest }) hp
      rw [hrec, raising_error] at hit
      refine iff_of_false (fun h => h 1 e ?_) fun h => hp h.1
      rw [run, hit, error_bind]

/-- The first `n` bytes of an endless stream. -/
def firstBytes (s : ℕ → UInt8) (n : ℕ) : Bytes := (List.range n).map s

/-- **On an endless stream, the process raises nothing exactly when every packet is harmless.** -/
theorem run_firstBytes_not_raised_iff (s : ℕ → UInt8) :
    (∀ n k e, run k (init (firstBytes s n)) ≠ .error (.raised e)) ↔
      ∀ n, ∀ p ∈ packets (firstBytes s n), Harmless p :=
  forall_congr' fun _ => run_not_raised_iff (idle_init _)

/-- A stream that begins with the first segment of a command. -/
theorem run_firstBytes_raised : run 1 (init (firstBytes
    (fun i => twoSegments.first.frame[i]?.getD 0) twoSegments.first.frame.length)) =
      .error (.raised .indexError) := by
  have hfirst : firstBytes (fun i => twoSegments.first.frame[i]?.getD 0)
      twoSegments.first.frame.length = twoSegments.first.frame ++ [] := by
    decide +kernel
  have hspi : (init (twoSegments.first.frame ++ [])).spi = twoSegments.first.frame ++ [] := rfl
  have hit := iteration_first (idle_init _) hspi twoSegments.first_grouping
    (arrivesWhole_twoSegments _ (by simp [Sequence.segments]))
  rw [hfirst, run, hit, error_bind]

end AnyStream

end ClickA.Bus
