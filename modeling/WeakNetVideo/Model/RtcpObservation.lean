import WeakNetVideo.Model.Rtcp

/-! # What the statistics handler reads from RTCP

Incoming RTCP goes to the quality estimator packet by packet. Every update is recorded with the packet
it is made for and the bytes it is made from. The buffer is the front of a memory that goes on behind
it: a pointer into a packet is not checked when it is followed.
-/

namespace WeakNetVideo

open BigEndian

/-- `kRtcpSenderReport`, `kRtcpReceiverReport` and `kTwccFeedbackFormat`. -/
def rtcpSenderReport : Byte := 200
def rtcpReceiverReport : Byte := 201
def twccFeedbackFormat : ℕ := 15

/-- What the transport library's report structures are like: their sizes, and the fields that a report
block of 24 bytes spells. -/
structure RtcpStructs where
  sizeofRr : ℕ
  sizeofSr : ℕ
  fractionLost : List Byte → Byte
  jitter : List Byte → UInt32
  ntpOfSr : List Byte → UInt32
  delaySinceSr : List Byte → UInt32

/-- Structures of one block each, with the fields of a report block in network byte order. -/
def RtcpStructs.oneBlock : RtcpStructs where
  sizeofRr := 32
  sizeofSr := 52
  fractionLost block := Rtp.byteAt block 4
  jitter block := readU32 block 12
  ntpOfSr block := readU32 block 16
  delaySinceSr block := readU32 block 20

/-- The size of a report block, and where the blocks of a receiver and of a sender report start. -/
abbrev reportBlockSize : ℕ := 24
abbrev rrBlocksAt : ℕ := 8
abbrev srBlocksAt : ℕ := 28

structure ByteRange where
  start : ℕ
  length : ℕ
deriving DecidableEq, Repr

/-- A packet that was found in a buffer. -/
structure RtcpPacket where
  start : ℕ
  size : ℕ
deriving DecidableEq, Repr

/-- The calls of the estimator. -/
inductive EstimatorUpdate where
  | receiverReport (fractionLost : Byte) (jitter lastSr delaySinceLastSr : UInt32)
  | twccFeedback (baseSequence statusCount : UInt16) (referenceTime : UInt32)
  | transportLossReport (expectedPackets lostPackets : UInt32)
deriving DecidableEq, Repr

/-- An update with the packet it is made for and the bytes it is made from. -/
structure RtcpObservation where
  packet : RtcpPacket
  reads : List ByteRange
  update : EstimatorUpdate
deriving DecidableEq, Repr

/-! ## Reports -/

/-- `as_packet`: the structure fits the packet. -/
def asPacket (structSize size : ℕ) : Bool := structSize ≤ size

/-- `observe_report_block` of a block at some place. -/
def observeReportBlock (structs : RtcpStructs) (memory : List Byte) (packet : RtcpPacket)
    (start : ℕ) : RtcpObservation :=
  let block := (memory.drop start).take reportBlockSize
  { packet := packet
    reads := [⟨start, reportBlockSize⟩]
    update := .receiverReport (structs.fractionLost block) (structs.jitter block)
      (structs.ntpOfSr block) (structs.delaySinceSr block) }

/-- The blocks of a report, as many as its header announces. `getReportBlock` only adds up. -/
def observeReport (structs : RtcpStructs) (memory : List Byte) (packet : RtcpPacket)
    (structSize blocksAt : ℕ) : List RtcpObservation :=
  if asPacket structSize packet.size then
    (List.range (Rtcp.reportCount memory packet.start)).map fun i =>
      observeReportBlock structs memory packet (packet.start + blocksAt + reportBlockSize * i)
  else []

/-! ## Transport feedback -/

/-- What the loop over the status chunks has counted, and the chunks it has read. -/
structure TwccParse where
  cursor : ℕ := 20
  parsedPackets : UInt16 := 0
  lostPackets : UInt32 := 0
  receivedPackets : UInt32 := 0
  reads : List ByteRange := []

/-- Some packets of one status. -/
def TwccParse.add (parse : TwccParse) (status count : UInt16) : TwccParse :=
  { parse with
    parsedPackets := parse.parsedPackets + count
    lostPackets := if status = 0 then parse.lostPackets + count.toUInt32 else parse.lostPackets
    receivedPackets :=
      if status = 0 then parse.receivedPackets else parse.receivedPackets + count.toUInt32 }

/-- One symbol of a status vector. -/
def statusSymbol (chunk : UInt16) (twoBit : Bool) (i : ℕ) : UInt16 :=
  if twoBit then (chunk >>> UInt16.ofNat (12 - i * 2)) &&& 0x03
  else (chunk >>> UInt16.ofNat (13 - i)) &&& 0x01

/-- A run of one status, or a vector of symbols, up to the announced count. -/
def TwccParse.chunk (parse : TwccParse) (chunk statusCount : UInt16) : TwccParse :=
  if chunk &&& 0x8000 = 0 then
    parse.add ((chunk >>> 13) &&& 0x03) (min (chunk &&& 0x1fff) (statusCount - parse.parsedPackets))
  else
    let twoBit : Bool := chunk &&& 0x4000 ≠ 0
    (List.range (if twoBit then 7 else 14)).foldl (fun parse i =>
      if parse.parsedPackets < statusCount then parse.add (statusSymbol chunk twoBit i) 1
      else parse) parse

/-- The loop over the chunks. Each turn moves the cursor, so the size of the packet is fuel enough. -/
def observeChunks (memory : List Byte) (packet : RtcpPacket) (statusCount : UInt16) :
    ℕ → TwccParse → TwccParse
  | 0, parse => parse
  | fuel + 1, parse =>
    if parse.parsedPackets < statusCount ∧ parse.cursor + 2 ≤ packet.size then
      let start := packet.start + parse.cursor
      let next : TwccParse :=
        { parse with cursor := parse.cursor + 2, reads := parse.reads ++ [⟨start, 2⟩] }
      observeChunks memory packet statusCount fuel (next.chunk (readU16 memory start) statusCount)
    else parse

def observeTwccFeedback (memory : List Byte) (packet : RtcpPacket) : List RtcpObservation :=
  if packet.size < 20 then []
  else
    let baseSequence := readU16 memory (packet.start + 12)
    let statusCount := readU16 memory (packet.start + 14)
    let referenceTime := UInt32.ofNat (valueAt 3 memory (packet.start + 16))
    let parse := observeChunks memory packet statusCount packet.size {}
    let expectedPackets := parse.receivedPackets + parse.lostPackets
    { packet := packet
      reads := [⟨packet.start + 12, 2⟩, ⟨packet.start + 14, 2⟩, ⟨packet.start + 16, 3⟩]
      update := .twccFeedback baseSequence statusCount referenceTime } ::
    (if expectedPackets > 0 then
      [{ packet := packet
         reads := ⟨packet.start + 14, 2⟩ :: parse.reads
         update := .transportLossReport expectedPackets parse.lostPackets }]
    else [])

/-! ## Compound packets -/

/-- One packet, by its type. -/
def observePacket (structs : RtcpStructs) (memory : List Byte) (packet : RtcpPacket) :
    List RtcpObservation :=
  let type := Rtcp.payloadType memory packet.start
  if type = rtcpReceiverReport then observeReport structs memory packet structs.sizeofRr rrBlocksAt
  else if type = rtcpSenderReport then observeReport structs memory packet structs.sizeofSr srBlocksAt
  else if type = rtcpTransportFeedback ∧ Rtcp.reportCount memory packet.start = twccFeedbackFormat then
    observeTwccFeedback memory packet
  else []

/-- The packets of a buffer of some size, from an offset on. Each has at least its header, so the size
of the buffer is fuel enough. -/
def observeFrom (structs : RtcpStructs) (memory : List Byte) (size : ℕ) : ℕ → ℕ → List RtcpObservation
  | 0, _ => []
  | fuel + 1, offset =>
    if offset + Rtcp.headerSize ≤ size then
      let packetSize := Rtcp.lengthInBytes memory offset
      if packetSize < Rtcp.headerSize ∨ offset + packetSize > size then []
      else observePacket structs memory ⟨offset, packetSize⟩ ++
        observeFrom structs memory size fuel (offset + packetSize)
    else []

def observeRtcpPacket (structs : RtcpStructs) (memory : List Byte) (size : ℕ) : List RtcpObservation :=
  observeFrom structs memory size size 0

end WeakNetVideo
