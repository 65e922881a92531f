import CongestionResponse.Framer.FrameGrammar
import CongestionResponse.Lib.Run

/-! The packets of `MyQuicFramer`: a public header, a packet number and frames.

A packet number is written with its low bytes only. The reader takes the number with these bytes
that is closest to the number it expects next (`calculatePacketNumberFromWire`), which is the
number that was sent if that is less than half an epoch away (`calculatePacketNumberFromWire_eq`).
So the header that is read is the header that was written (`reads_headerBytes`), apart from the
fields that only one side has, and a reader gets through any number of packets, in any order, as
long as none is further away than that from the largest number it has seen. -/
namespace CongestionResponse.Framer
open Lib Quic

/-! ### Headers -/

inductive Perspective where
  | isServer | isClient
deriving DecidableEq

def Perspective.peer : Perspective → Perspective
  | .isServer => .isClient
  | .isClient => .isServer

inductive QuicConnectionIdLength where
  | zeroByte | eightByte
deriving DecidableEq

/-- A header with its public fields. The version is its label. -/
structure PublicHeader extends QuicPacketHeader where
  connectionId : Nat
  connectionIdLength : QuicConnectionIdLength
  resetFlag : Bool
  versionFlag : Bool
  version : Option Nat
  nonce : Option (List UInt8)

def kPublicHeaderSequenceNumberShift : Nat := 4
def kPublicFlagsVersion : Nat := 1
def kPublicFlagsRst : Nat := 2
def kPublicFlagsNonce : Nat := 4
def kPublicFlags8ByteConnectionId : Nat := 8
def kPublicFlags8ByteConnectionIdOld : Nat := 12
def kPublicFlagsMax : Nat := 63
def kDiversificationNonceSize : Nat := 32
def kMaxPacketSize : Nat := 1452

/-- The label of version 43, `Q043`. -/
def kVersionLabel : Nat := 0x51303433

/-- What of the framer's state the headers are read with. -/
structure FramerState where
  perspective : Perspective
  largestPacketNumber : Nat
  lastSerializedConnectionId : Nat

/-! ### Writing -/

section Writing
variable (perspective : Perspective) (header : PublicHeader)

def publicFlags : Nat :=
  let flags := if header.resetFlag then kPublicFlagsRst else 0
  let flags := if header.versionFlag then flags ||| kPublicFlagsVersion else flags
  let flags := flags |||
    (getPacketNumberFlags header.packetNumberLength <<< kPublicHeaderSequenceNumberShift)
  let flags := if header.nonce.isSome then flags ||| kPublicFlagsNonce else flags
  match header.connectionIdLength with
  | .zeroByte => flags
  | .eightByte =>
    let flags := flags ||| kPublicFlags8ByteConnectionId
    if perspective = .isClient then flags ||| kPublicFlags8ByteConnectionIdOld else flags

def appendConnectionId : Write Unit :=
  match header.connectionIdLength with
  | .zeroByte => pure ()
  | .eightByte => writeConnectionId header.connectionId

def appendVersion : Write Unit :=
  if header.versionFlag then writeVersionLabel kVersionLabel else pure ()

def appendNonce : Write Unit :=
  match header.nonce with
  | none => pure ()
  | some nonce => .bytes (nonce.take kDiversificationNonceSize)

def appendPacketHeader : Write Unit := do
  writeUInt8 (UInt8.ofNat (publicFlags perspective header))
  appendConnectionId header
  appendVersion header
  appendNonce header
  appendPacketNumber header.packetNumberLength header.packetNumber

end Writing

/-! ### Packet numbers -/

def delta (a b : Nat) : Nat := if a < b then b - a else a - b

def closestTo (target a b : Nat) : Nat := if delta target a < delta target b then a else b

/-- The sums and differences are those of 64 bits. -/
def calculatePacketNumberFromWire (length : QuicPacketNumberLength)
    (basePacketNumber packetNumber : Nat) : Nat :=
  let epochDelta := 2 ^ (8 * length.bytes)
  let nextPacketNumber := (basePacketNumber + 1) % 2 ^ 64
  let epoch := basePacketNumber - basePacketNumber % epochDelta
  let prevEpoch := subU64 epoch epochDelta
  let nextEpoch := (epoch + epochDelta) % 2 ^ 64
  closestTo nextPacketNumber ((epoch + packetNumber) % 2 ^ 64)
    (closestTo nextPacketNumber ((prevEpoch + packetNumber) % 2 ^ 64)
      ((nextEpoch + packetNumber) % 2 ^ 64))

/-! ### Reading -/

section Reading
variable {κ : Type} (framer : FramerState)

def readSequenceNumberLength (flags : Nat) : QuicPacketNumberLength :=
  readAckPacketNumberLength flags

def readConnectionId (publicFlags : Nat) :
    Parse String κ (Nat × QuicConnectionIdLength) :=
  if publicFlags &&& kPublicFlags8ByteConnectionId = kPublicFlags8ByteConnectionId then do
    let connectionId ← readUInt64 "Unable to read ConnectionId."
    return (connectionId, .eightByte)
  else return (framer.lastSerializedConnectionId, .zeroByte)

/-- A version in a packet from the server would be a version negotiation. -/
def readVersion (publicFlags : Nat) (versionFlag : Bool) : Parse String κ (Option Nat) :=
  if versionFlag = true ∧ framer.perspective = .isServer then do
    let versionLabel ← readUInt32 "Unable to read protocol version."
    Parse.refuse (versionLabel = kVersionLabel ∧ kPublicFlagsMax < publicFlags)
      "Illegal public flags value."
    return some versionLabel
  else return none

/-- The flag of a nonce from a client is an older client's flag of a connection id. -/
def readNonce (publicFlags : Nat) : Parse String κ (Option (List UInt8)) :=
  if publicFlags &&& kPublicFlagsNonce ≠ 0 ∧ ¬publicFlags &&& kPublicFlagsVersion ≠ 0 ∧
      ¬publicFlags &&& kPublicFlagsRst ≠ 0 ∧ framer.perspective = .isClient then do
    let nonce ← Parse.take kDiversificationNonceSize "Unable to read nonce."
    return some nonce
  else return none

/-- The packet number is read later. -/
def processPublicHeader : Parse String κ PublicHeader := do
  let publicFlags ← readUInt8 "Unable to read public flags."
  let resetFlag := decide (publicFlags &&& kPublicFlagsRst ≠ 0)
  let versionFlag := decide (publicFlags &&& kPublicFlagsVersion ≠ 0)
  Parse.refuse (versionFlag = false ∧ kPublicFlagsMax < publicFlags) "Illegal public flags value."
  Parse.refuse (resetFlag = true ∧ versionFlag = true) "Got version flag in reset packet"
  let (connectionId, connectionIdLength) ← readConnectionId framer publicFlags
  let packetNumberLength :=
    readSequenceNumberLength (publicFlags >>> kPublicHeaderSequenceNumberShift)
  let version ← readVersion framer publicFlags versionFlag
  let nonce ← readNonce framer publicFlags
  return {
    packetNumber := 0
    packetNumberLength := packetNumberLength
    connectionId := connectionId
    connectionIdLength := connectionIdLength
    resetFlag := resetFlag
    versionFlag := versionFlag
    version := version
    nonce := nonce }

def processAndCalculatePacketNumber (length : QuicPacketNumberLength) : Parse String κ Nat := do
  let wirePacketNumber ← readBytesToUInt64 length.bytes "Unable to read packet number."
  return calculatePacketNumberFromWire length framer.largestPacketNumber wirePacketNumber

def processUnauthenticatedHeader (header : PublicHeader) : Parse String κ PublicHeader := do
  let packetNumber ← processAndCalculatePacketNumber framer header.packetNumberLength
  Parse.refuse (packetNumber = 0) "packet numbers cannot be 0."
  return {header with packetNumber := packetNumber}

/-- The header of a data packet, which is neither a public reset nor a version negotiation, for
a visitor that lets it pass. -/
def processHeader : Parse FramerError Call PublicHeader :=
  raising .invalidPacketHeader do
    let header ← processPublicHeader framer
    processUnauthenticatedHeader framer header

/-- `ProcessPacket` for a data packet of at most `kMaxPacketSize` bytes. The payload stands in the
clear: decryption is left out. -/
def processPacket (visitor : Visitor) : Parse FramerError Call PublicHeader := do
  let header ← processHeader framer
  processFrameData visitor header.toQuicPacketHeader
  return header

/-- The largest packet number counts a packet as soon as its header has been read, whatever
becomes of its frames. -/
def FramerState.receive (packet : List UInt8) : FramerState :=
  match (processHeader framer ⟨packet, []⟩).1 with
  | .ok header =>
    {framer with largestPacketNumber := max header.packetNumber framer.largestPacketNumber}
  | .error _ => framer

end Reading

/-! ### The packet number that is meant -/

/-- A number is in reach of a reader whose largest number is `base` if it is less than half an
epoch away from the next one. -/
structure InReach (length : QuicPacketNumberLength) (base n : Nat) : Prop where
  above : n < base + 1 + 2 ^ (8 * length.bytes - 1)
  below : base + 1 < n + 2 ^ (8 * length.bytes - 1)

section Closest
variable {target half n a b : Nat}

/-- Of two numbers of which one is close and the others are not, the close one is chosen. -/
theorem closestTo_eq (hn : delta target n < half) (ha : a = n ∨ half ≤ delta target a)
    (hb : b = n ∨ half ≤ delta target b) (hsome : a = n ∨ b = n) : closestTo target a b = n := by
  unfold closestTo
  rcases ha with rfl | ha
  · rcases hb with rfl | hb
    · exact ite_self _
    · exact if_pos (hn.trans_le hb)
  · rcases hsome with rfl | rfl
    · exact absurd ha (Nat.not_le.mpr hn)
    · exact if_neg (Nat.not_lt.mpr (hn.le.trans ha))

theorem closestTo_far (ha : a = n ∨ half ≤ delta target a) (hb : b = n ∨ half ≤ delta target b) :
    closestTo target a b = n ∨ half ≤ delta target (closestTo target a b) := by
  unfold closestTo
  split
  · exact ha
  · exact hb

/-- Numbers with the same low bytes are an epoch apart. -/
theorem far_of_mod_eq (hn : delta target n < half) (hmod : a % (2 * half) = n % (2 * half)) :
    a = n ∨ half ≤ delta target a := by
  by_cases heq : a = n
  · exact .inl heq
  right
  unfold delta at hn ⊢
  rcases Nat.lt_or_gt_of_ne heq with hlt | hgt
  · have hle := Nat.le_of_dvd (Nat.sub_pos_of_lt hlt)
      (Nat.dvd_of_mod_eq_zero (Nat.sub_mod_eq_zero_of_mod_eq hmod.symm))
    split <;> split at hn <;> omega
  · have hle := Nat.le_of_dvd (Nat.sub_pos_of_lt hgt)
      (Nat.dvd_of_mod_eq_zero (Nat.sub_mod_eq_zero_of_mod_eq hmod))
    split <;> split at hn <;> omega

end Closest

theorem mod_epoch_add {epochDelta epoch : Nat} (hword : epochDelta ∣ 2 ^ 64)
    (hepoch : epochDelta ∣ epoch) (w : Nat) :
    (epoch + w) % 2 ^ 64 % epochDelta = w % epochDelta := by
  obtain ⟨q, rfl⟩ := hepoch
  rw [Nat.mod_mod_of_dvd _ hword, Nat.mul_add_mod]

/-- One of the three epochs that are tried is that of the number. -/
theorem exists_epoch {epochDelta half base n : Nat} (hhalf : epochDelta = 2 * half)
    (habove : n < base + 1 + half) (hbelow : base + 1 < n + half) :
    let epoch := base - base % epochDelta
    epoch + n % epochDelta = n ∨ epochDelta ≤ epoch ∧ epoch - epochDelta + n % epochDelta = n ∨
      epoch + epochDelta + n % epochDelta = n := by
  intro epoch
  have hpos : 0 < epochDelta := by omega
  have hn := Nat.div_add_mod n epochDelta
  have hbase := Nat.div_add_mod base epochDelta
  have hnlt := Nat.mod_lt n hpos
  have hbaselt := Nat.mod_lt base hpos
  have hepoch : epoch = epochDelta * (base / epochDelta) := by omega
  have hupper : n / epochDelta < base / epochDelta + 2 := by
    apply Nat.lt_of_mul_lt_mul_left (a := epochDelta)
    rw [Nat.mul_add]
    omega
  have hlower : base / epochDelta < n / epochDelta + 2 := by
    apply Nat.lt_of_mul_lt_mul_left (a := epochDelta)
    rw [Nat.mul_add]
    omega
  rw [hepoch]
  rcases Nat.lt_trichotomy (n / epochDelta) (base / epochDelta) with hlt | heq | hgt
  · have hsucc : base / epochDelta = n / epochDelta + 1 := by omega
    right
    left
    rw [hsucc, Nat.mul_succ]
    omega
  · left
    rw [← heq]
    exact hn
  · have hsucc : n / epochDelta = base / epochDelta + 1 := by omega
    right
    right
    rw [hsucc, Nat.mul_succ] at hn
    exact hn

theorem dvd_subU64 {epochDelta epoch : Nat} (hword : epochDelta ∣ 2 ^ 64)
    (hepoch : epochDelta ∣ epoch) : epochDelta ∣ subU64 epoch epochDelta := by
  unfold subU64
  split
  · exact Nat.dvd_sub hepoch (Nat.dvd_refl _)
  · exact Nat.dvd_sub (Nat.dvd_add hepoch hword) (Nat.dvd_refl _)

/-- An epoch of up to six bytes has two halves, and 64 bits have whole epochs. -/
theorem exists_half {length : QuicPacketNumberLength} (hlength : length ≠ .eightByte) :
    ∃ half, 2 ^ (8 * length.bytes - 1) = half ∧ 2 ^ (8 * length.bytes) = 2 * half ∧
      2 * half ∣ 2 ^ 64 ∧ half ≤ 2 ^ 47 := by
  refine ⟨_, rfl, ?_⟩
  cases length with
  | eightByte => exact absurd rfl hlength
  | _ => decide

/-- The number is told from its low bytes. -/
theorem calculatePacketNumberFromWire_eq {length : QuicPacketNumberLength} {base n : Nat}
    (hlength : length ≠ .eightByte) (hn : n < 2 ^ 63) (h : InReach length base n) :
    calculatePacketNumberFromWire length base (n % 256 ^ length.bytes) = n := by
  obtain ⟨half, hhalf, hpow, hword, hsmall⟩ := exists_half hlength
  obtain ⟨habove, hbelow⟩ := h
  rw [hhalf] at habove hbelow
  have hbytes : 256 ^ length.bytes = 2 * half := by
    rw [← hpow, Nat.pow_mul]
  have hnext : (base + 1) % 2 ^ 64 = base + 1 := Nat.mod_eq_of_lt (by omega)
  have hself : n % 2 ^ 64 = n := Nat.mod_eq_of_lt (by omega)
  have hclose : delta (base + 1) n < half := by
    unfold delta
    split <;> omega
  unfold calculatePacketNumberFromWire
  simp only [hpow, hbytes, hnext]
  have hdvd : 2 * half ∣ base - base % (2 * half) := Nat.dvd_sub_mod base
  have hexists := exists_epoch (Eq.refl (2 * half)) habove hbelow
  generalize base - base % (2 * half) = epoch at hdvd hexists ⊢
  -- In every epoch the low bytes stand for the number itself or for one that is far away.
  have hfar : ∀ e, 2 * half ∣ e →
      (e + n % (2 * half)) % 2 ^ 64 = n ∨
        half ≤ delta (base + 1) ((e + n % (2 * half)) % 2 ^ 64) := by
    intro e he
    exact far_of_mod_eq hclose (by rw [mod_epoch_add hword he, Nat.mod_mod])
  have hprev := hfar _ (dvd_subU64 hword hdvd)
  have hfollowing := hfar ((epoch + 2 * half) % 2 ^ 64)
    ((Nat.dvd_mod_iff hword).mpr (Nat.dvd_add hdvd (Nat.dvd_refl _)))
  refine closestTo_eq hclose (hfar _ hdvd) (closestTo_far hprev hfollowing) ?_
  rcases hexists with heq | ⟨hle, heq⟩ | heq
  · left
    rw [heq, hself]
  · right
    refine closestTo_eq hclose hprev hfollowing (.inl ?_)
    rw [subU64_of_le hle, heq, hself]
  · right
    refine closestTo_eq hclose hprev hfollowing (.inr ?_)
    rw [Nat.mod_add_mod, heq, hself]

/-! ### What the flags say -/

/-- What the reader makes of the flags. The flag of a nonce is looked at in packets of the server
only. -/
structure FlagsOf (perspective : Perspective) (header : PublicHeader) (flags : Nat) : Prop where
  inRange : flags ≤ kPublicFlagsMax
  reset : decide (flags &&& kPublicFlagsRst ≠ 0) = header.resetFlag
  version : decide (flags &&& kPublicFlagsVersion ≠ 0) = header.versionFlag
  connectionId : flags &&& kPublicFlags8ByteConnectionId = kPublicFlags8ByteConnectionId ↔
    header.connectionIdLength = .eightByte
  nonce : perspective = .isServer →
    (flags &&& kPublicFlagsNonce ≠ 0 ↔ header.nonce.isSome = true)
  length : header.packetNumberLength ≠ .eightByte →
    readSequenceNumberLength (flags >>> kPublicHeaderSequenceNumberShift) =
      header.packetNumberLength

theorem flagsOf_publicFlags (perspective : Perspective) (header : PublicHeader) :
    FlagsOf perspective header (publicFlags perspective header) := by
  obtain ⟨⟨number, length⟩, id, idLength, reset, version, label, nonce⟩ := header
  have hall : ∀ nonce ∈ [none, some []],
      let header : PublicHeader := ⟨⟨0, length⟩, 0, idLength, reset, version, none, nonce⟩
      FlagsOf perspective header (publicFlags perspective header) := by
    cases perspective <;> cases length <;> cases idLength <;> cases reset <;> cases version <;>
      refine List.forall_mem_cons.mpr ⟨?_, List.forall_mem_cons.mpr ⟨?_, List.forall_mem_nil _⟩⟩ <;>
      exact ⟨by decide, by decide, by decide, by decide, by decide, by decide⟩
  cases nonce with
  | none =>
    have h := hall none (by simp)
    exact ⟨h.inRange, h.reset, h.version, h.connectionId, h.nonce, h.length⟩
  | some nonce =>
    have h := hall (some []) (by simp)
    exact ⟨h.inRange, h.reset, h.version, h.connectionId, h.nonce, h.length⟩

/-! ### Headers on the wire -/

namespace PublicHeader
variable (header : PublicHeader)

def connectionIdBytes : List UInt8 :=
  match header.connectionIdLength with
  | .zeroByte => []
  | .eightByte => bigEndian 8 header.connectionId

def versionBytes : List UInt8 := if header.versionFlag then bigEndian 4 kVersionLabel else []

def nonceBytes : List UInt8 :=
  match header.nonce with
  | none => []
  | some nonce => nonce.take kDiversificationNonceSize

/-- The header up to the packet number. -/
def publicBytes (perspective : Perspective) : List UInt8 :=
  UInt8.ofNat (publicFlags perspective header) ::
    (header.connectionIdBytes ++ (header.versionBytes ++ header.nonceBytes))

/-- A version comes from a client and a nonce from a server, as `AppendPacketHeader` asserts, and
neither stands in a public reset. Packet numbers have up to six bytes. -/
structure Sendable (perspective : Perspective) : Prop where
  connectionId : header.connectionId < 2 ^ 64
  length : header.packetNumberLength ≠ .eightByte
  version : header.versionFlag = true → perspective = .isClient ∧ header.resetFlag = false
  nonce : ∀ nonce ∈ header.nonce,
    perspective = .isServer ∧ header.resetFlag = false ∧ nonce.length = kDiversificationNonceSize

/-- The header as the other side knows it: it has the version by its label, and a connection id
that was left out is the one it uses itself. -/
def asRead (framer : FramerState) : PublicHeader :=
  {header with
    connectionId :=
      match header.connectionIdLength with
      | .zeroByte => framer.lastSerializedConnectionId
      | .eightByte => header.connectionId
    version := if header.versionFlag then some kVersionLabel else none}

end PublicHeader

theorem writes_appendPacketHeader (perspective : Perspective) (header : PublicHeader) :
    Writes (appendPacketHeader perspective header) (header.publicBytes perspective ++
      bigEndian header.packetNumberLength.bytes header.packetNumber) () := by
  have hid : Writes (appendConnectionId header) header.connectionIdBytes () := by
    unfold appendConnectionId PublicHeader.connectionIdBytes
    split
    · exact .pure ()
    · exact .bytes _
  have hversion : Writes (appendVersion header) header.versionBytes () := by
    unfold appendVersion PublicHeader.versionBytes
    split
    · exact .bytes _
    · exact .pure ()
  have hnonce : Writes (appendNonce header) header.nonceBytes () := by
    unfold appendNonce PublicHeader.nonceBytes
    split
    · exact .pure ()
    · exact .bytes _
  rw [PublicHeader.publicBytes, List.cons_append, List.append_assoc, List.append_assoc]
  refine Writes.bind (b := [UInt8.ofNat (publicFlags perspective header)]) (.bytes _) ?_
  exact hid.bind (hversion.bind (hnonce.bind (.bytes _)))

section Read
variable {κ : Type} {perspective : Perspective} {header : PublicHeader} {framer : FramerState}
  {flags : Nat}

theorem reads_connectionId (hflags : FlagsOf perspective header flags)
    (h : header.Sendable perspective) :
    Reads (readConnectionId framer flags : Parse String κ _) header.connectionIdBytes []
      ((header.asRead framer).connectionId, header.connectionIdLength) := by
  have htest := hflags.connectionId
  unfold readConnectionId PublicHeader.connectionIdBytes PublicHeader.asRead
  cases hlength : header.connectionIdLength with
  | zeroByte =>
    rw [if_neg (by rw [htest, hlength]; exact QuicConnectionIdLength.noConfusion)]
    exact .pure _
  | eightByte =>
    rw [if_pos (htest.mpr hlength)]
    exact (reads_uint64 h.connectionId _).map fun connectionId =>
      (connectionId, QuicConnectionIdLength.eightByte)

theorem reads_version (hflags : FlagsOf perspective header flags)
    (h : header.Sendable perspective) (hpeer : framer.perspective = perspective.peer) :
    Reads (readVersion framer flags header.versionFlag : Parse String κ _) header.versionBytes []
      (header.asRead framer).version := by
  unfold readVersion PublicHeader.versionBytes PublicHeader.asRead
  cases hversion : header.versionFlag with
  | false =>
    rw [if_neg fun hread => Bool.noConfusion hread.1]
    exact .pure _
  | true =>
    have hserver : framer.perspective = .isServer := by
      rw [hpeer, (h.version hversion).1]
      rfl
    rw [if_pos ⟨rfl, hserver⟩]
    refine Reads.bind (k := []) (reads_uint32 (by decide) _) (b := bigEndian 4 kVersionLabel)
      (c := []) ?_
    exact (Reads.refuse (fun hbad => absurd hflags.inRange (Nat.not_le.mpr hbad.2)) _).map
      fun _ => some kVersionLabel

theorem reads_nonce (hflags : FlagsOf perspective header flags) (h : header.Sendable perspective)
    (hpeer : framer.perspective = perspective.peer) :
    Reads (readNonce framer flags : Parse String κ _) header.nonceBytes [] header.nonce := by
  have hreset := hflags.reset
  have hversion := hflags.version
  unfold readNonce PublicHeader.nonceBytes
  cases hnonce : header.nonce with
  | none =>
    rw [if_neg]
    · exact .pure _
    · rintro ⟨hflag, -, -, hclient⟩
      have hserver : perspective = .isServer := by
        cases perspective with
        | isServer => rfl
        | isClient => rw [hpeer] at hclient; cases hclient
      have hsome := (hflags.nonce hserver).mp hflag
      rw [hnonce] at hsome
      cases hsome
  | some nonce =>
    obtain ⟨hserver, hdata, hsize⟩ := h.nonce nonce hnonce
    have hclient : framer.perspective = .isClient := by
      rw [hpeer, hserver]
      rfl
    have hnoVersion : header.versionFlag = false := by
      by_contra hflag
      have := (h.version (Bool.not_eq_false _ ▸ hflag)).1
      rw [hserver] at this
      cases this
    rw [if_pos]
    · show Reads _ (nonce.take kDiversificationNonceSize) [] (some nonce)
      rw [List.take_of_length_le hsize.le]
      exact (Reads.take hsize _).map some
    · refine ⟨(hflags.nonce hserver).mpr (by rw [hnonce]; rfl), ?_, ?_, hclient⟩
      · rw [hnoVersion] at hversion
        exact decide_eq_false_iff_not.mp hversion
      · rw [hdata] at hreset
        exact decide_eq_false_iff_not.mp hreset

/-- The public fields are read as they were written. -/
theorem reads_publicBytes (h : header.Sendable perspective)
    (hpeer : framer.perspective = perspective.peer) :
    Reads (processPublicHeader framer : Parse String κ _) (header.publicBytes perspective) []
      {header.asRead framer with packetNumber := 0} := by
  have hflags := flagsOf_publicFlags perspective header
  have hbyte : publicFlags perspective header < 256 ^ 1 :=
    Nat.lt_of_le_of_lt hflags.inRange (by decide)
  unfold processPublicHeader PublicHeader.publicBytes
  refine Reads.bind (b := [UInt8.ofNat (publicFlags perspective header)]) (k := [])
    (reads_uint hbyte _) ?_
  simp only [hflags.reset, hflags.version, hflags.length h.length]
  refine Reads.bind (b := []) (k := [])
    (.refuse (fun hbad => absurd hflags.inRange (Nat.not_le.mpr hbad.2)) _) ?_
  refine Reads.bind (b := []) (k := []) (.refuse (fun hbad => ?_) _) ?_
  · rw [hflags.reset, hflags.version] at hbad
    have hreset := (h.version hbad.2).2
    rw [hbad.1] at hreset
    cases hreset
  refine Reads.bind (k := []) (reads_connectionId hflags h) ?_
  refine Reads.bind (k := []) (reads_version hflags h hpeer) ?_
  exact (reads_nonce hflags h hpeer).map _

/-- The header is read as it was written, with the number that was meant. -/
theorem reads_headerBytes (h : header.Sendable perspective)
    (hpeer : framer.perspective = perspective.peer)
    (hreach : InReach header.packetNumberLength framer.largestPacketNumber header.packetNumber)
    (hpos : 0 < header.packetNumber) (hsmall : header.packetNumber < 2 ^ 63) :
    Reads (processHeader framer) (header.publicBytes perspective ++
      bigEndian header.packetNumberLength.bytes header.packetNumber) [] (header.asRead framer) := by
  have hnumber := calculatePacketNumberFromWire_eq h.length hsmall hreach
  refine Reads.mapError ((reads_publicBytes h hpeer).bind (k := []) ?_) _
  have hcalculated := (reads_uint_mod (κ := Call) header.packetNumberLength.bytes
    header.packetNumber "Unable to read packet number.").map
      (calculatePacketNumberFromWire header.packetNumberLength framer.largestPacketNumber)
  rw [hnumber] at hcalculated
  rw [← List.append_nil (bigEndian _ _)]
  exact hcalculated.bind (k := []) ((Reads.refuse hpos.ne' _).map fun _ => header.asRead framer)

end Read

/-! ### Packets -/

structure Packet where
  header : PublicHeader
  frames : List WireFrame

/-- A packet: what `AppendPacketHeader` leaves in a buffer of `packetLength` bytes, and behind it
the frames, in the clear. -/
def Packet.bytes (perspective : Perspective) (packetLength : Nat) (packet : Packet) :
    List UInt8 :=
  (appendPacketHeader perspective packet.header ⟨packetLength, []⟩).2.written ++
    (wireFormat packet.header.toQuicPacketHeader).payload packet.frames

/-- What is asked of a packet: it is a data packet that was written, with a number in reach and
well-formed frames. -/
structure Packet.Readable (perspective : Perspective) (packetLength : Nat) (framer : FramerState)
    (packet : Packet) : Prop where
  sendable : packet.header.Sendable perspective
  data : packet.header.resetFlag = false
  written : (appendPacketHeader perspective packet.header ⟨packetLength, []⟩).1 = some ()
  inReach : InReach packet.header.packetNumberLength framer.largestPacketNumber
    packet.header.packetNumber
  positive : 0 < packet.header.packetNumber
  below : packet.header.packetNumber < 2 ^ 63
  size : (packet.bytes perspective packetLength).length ≤ kMaxPacketSize
  frames : packet.frames ≠ []
  payload : (wireFormat packet.header.toQuicPacketHeader).Payload packet.frames

def FramerState.count (framer : FramerState) (packet : Packet) : FramerState :=
  {framer with
    largestPacketNumber := max packet.header.packetNumber framer.largestPacketNumber}

/-- What the reader gets out of a packet: its header and the calls of the visitor. -/
def Packet.asRead (framer : FramerState) (packet : Packet) :
    Except FramerError PublicHeader × Cursor Call :=
  (.ok (packet.header.asRead framer),
    ⟨[], (wireFormat packet.header.toQuicPacketHeader).reports packet.frames⟩)

section Packets
variable {perspective : Perspective} {packetLength : Nat} {framer : FramerState} {packet : Packet}
  {visitor : Visitor}

theorem processHeader_bytes (hpeer : framer.perspective = perspective.peer)
    (h : packet.Readable perspective packetLength framer) :
    processHeader framer ⟨packet.bytes perspective packetLength, []⟩ =
      (.ok (packet.header.asRead framer),
        ⟨(wireFormat packet.header.toQuicPacketHeader).payload packet.frames, []⟩) := by
  have hwritten := (writes_appendPacketHeader perspective packet.header).of_some
    (show (⟨packetLength, []⟩ : Buffer).Fits [] from Nat.zero_le _) h.written
  unfold Packet.bytes
  rw [hwritten]
  exact reads_headerBytes h.sendable hpeer h.inReach h.positive h.below _ _

theorem receive_bytes (hpeer : framer.perspective = perspective.peer)
    (h : packet.Readable perspective packetLength framer) :
    framer.receive (packet.bytes perspective packetLength) = framer.count packet := by
  rw [FramerState.receive, processHeader_bytes hpeer h]
  rfl

theorem processPacket_bytes (hv : visitor.Accepts) (hpeer : framer.perspective = perspective.peer)
    (h : packet.Readable perspective packetLength framer) :
    processPacket framer visitor ⟨packet.bytes perspective packetLength, []⟩ =
      packet.asRead framer := by
  have hframes := (accepted_iff packet.header.toQuicPacketHeader hv _ _).mpr
    ⟨packet.frames, h.frames, h.payload, rfl, rfl⟩
  unfold processPacket
  rw [Parse.bind_ok (processHeader_bytes hpeer h)]
  exact Parse.bind_ok hframes

/-- **Packets are read as they were written.** A framer that is handed data packets of the other
side, in whatever order, gets from each of them the header that was written, with the number that
was meant, and shows its frames to the visitor in their order, as long as every number is less
than half an epoch away from the one after the largest so far. -/
theorem packets_read_as_written (hv : visitor.Accepts)
    (hpeer : framer.perspective = perspective.peer) (packets : List Packet)
    (h : Along FramerState.count (Packet.Readable perspective packetLength) framer packets) :
    trace FramerState.receive (fun framer bytes => [processPacket framer visitor ⟨bytes, []⟩])
        framer (packets.map (Packet.bytes perspective packetLength)) =
      packets.map (Packet.asRead framer) ∧
    run FramerState.receive framer (packets.map (Packet.bytes perspective packetLength)) =
      run FramerState.count framer packets := by
  induction packets generalizing framer with
  | nil => exact ⟨rfl, rfl⟩
  | cons packet rest ih =>
    obtain ⟨hreadable, hrest⟩ := h
    obtain ⟨htrace, hrun⟩ :=
      ih (show (framer.count packet).perspective = perspective.peer from hpeer) hrest
    rw [List.map_cons, List.map_cons, trace, run_cons, run_cons, receive_bytes hpeer hreadable,
      processPacket_bytes hv hpeer hreadable, htrace, hrun]
    exact ⟨rfl, rfl⟩

end Packets

def pinged : List Packet :=
  [⟨⟨⟨255, .oneByte⟩, 7, .eightByte, false, true, none, none⟩, [.ping, .padding 2]⟩,
    ⟨⟨⟨257, .oneByte⟩, 7, .eightByte, false, false, none, none⟩, [.stopWaiting 3, .ping]⟩,
    ⟨⟨⟨256, .oneByte⟩, 0, .zeroByte, false, false, none, none⟩, [.blocked 5]⟩]

/-- The low bytes of three numbers around the end of an epoch, the last two in the wrong order,
and a connection id that is left out. -/
theorem packets_read_as_written_out_of_order :
    let framer : FramerState := ⟨.isServer, 254, 9⟩
    let bytes := pinged.map (Packet.bytes .isClient 20)
    bytes = [[13, 0, 0, 0, 0, 0, 0, 0, 7, 81, 48, 52, 51, 255, 7, 0, 0],
      [12, 0, 0, 0, 0, 0, 0, 0, 7, 1, 6, 3, 7], [0, 0, 5, 0, 0, 0, 5]] ∧
    Along FramerState.count (Packet.Readable .isClient 20) framer pinged ∧
    trace FramerState.receive
        (fun framer bytes => [processPacket framer (fun _ _ => true) ⟨bytes, []⟩]) framer bytes =
      [(.ok ⟨⟨255, .oneByte⟩, 7, .eightByte, false, true, some kVersionLabel, none⟩,
          ⟨[], [.onPingFrame, .onPaddingFrame 2]⟩),
        (.ok ⟨⟨257, .oneByte⟩, 7, .eightByte, false, false, none, none⟩,
          ⟨[], [.onStopWaitingFrame 254, .onPingFrame]⟩),
        (.ok ⟨⟨256, .oneByte⟩, 9, .zeroByte, false, false, none, none⟩,
          ⟨[], [.onBlockedFrame 5]⟩)] ∧
    (run FramerState.receive framer bytes).largestPacketNumber = 257 := by
  intro framer bytes
  have hreadable : Along FramerState.count (Packet.Readable .isClient 20) framer pinged := by
    refine ⟨⟨⟨by decide, by decide, by decide, by decide⟩, rfl, rfl, ⟨by decide, by decide⟩,
        by decide, by decide, by decide, List.cons_ne_nil _ _, ?_⟩,
      ⟨⟨by decide, by decide, by decide, by decide⟩, rfl, rfl, ⟨by decide, by decide⟩,
        by decide, by decide, by decide, List.cons_ne_nil _ _, ?_⟩,
      ⟨⟨by decide, by decide, by decide, by decide⟩, rfl, rfl, ⟨by decide, by decide⟩,
        by decide, by decide, by decide, List.cons_ne_nil _ _, ?_⟩, trivial⟩
    · exact ⟨trivial, trivial, show 0 < 2 by decide,
        show ([] : List UInt8).head? ≠ some 0 by decide, trivial⟩
    · exact ⟨⟨by decide, by decide⟩, trivial, trivial, trivial, trivial⟩
    · exact ⟨show 5 < 2 ^ 32 by decide, trivial, trivial⟩
  obtain ⟨htrace, hrun⟩ := packets_read_as_written 
    (show Visitor.Accepts fun _ _ => true from fun _ _ => rfl) rfl pinged hreadable
  exact ⟨by decide, hreadable, htrace, congrArg FramerState.largestPacketNumber hrun⟩

end CongestionResponse.Framer
