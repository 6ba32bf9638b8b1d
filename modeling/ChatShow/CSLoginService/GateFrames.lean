import ChatShow.CSLoginService.NetPacket
import ChatShow.CSLoginService.UserLogin
import ChatShow.CommBase.Segmentation

/-! # The packets of the login service as frames of the gate

A packet of `net_packet.h` is 26 bytes of a header and a payload, and so is a frame that the sessions of
the gate take off their buffers. `frame` is the packet as such a frame: its bytes are those that the
login service sends (`bytes_frame`), and it is well formed for the server that the header names
(`wellFormed_frame`). -/

namespace ChatShow.CSLoginService.GateFrames

open ChatShow.Lib.Bytes ChatShow.Lib.Cells ChatShow.CommBase.NetWorkConfig
open ChatShow.CommBase.SessionRecv ChatShow.CommBase.Segmentation
open ChatShow.CSLoginService.NetPacket ChatShow.CSLoginService.UserLogin

/-- The bytes of a packet that are sent. -/
def sent (q : SPacket) : List UInt8 := slice q.buf 0 q.off

/-- The packet as a frame. -/
def frame (q : SPacket) : Frame where
  head := packetHeader.decode (slice q.buf 0 HEADER_LENGTH)
  content := slice q.buf HEADER_LENGTH (q.off - HEADER_LENGTH)

section

variable {mem : Memory} {h : Header} {l : List Push} {q : SPacket}

theorem content_frame (hq : netPacket mem h l = some q) : (frame q).content = payload l := by
  obtain ⟨-, hpay, hoff⟩ := buf_netPacket hq
  unfold frame
  rw [hoff, Nat.add_sub_cancel_left]
  exact hpay

theorem size_frame (hq : netPacket mem h l = some q) : (frame q).size ≤ BODY_LENGTH := by
  unfold Frame.size
  rw [content_frame hq]
  exact (netPacket_some.mp hq).1.2

/-- The head of a packet, with the fields that servers do not turn round. -/
theorem head_frame (hq : netPacket mem h l = some q) :
    (frame q).head.security = false ∧ (frame q).head.localType = 0 := by
  obtain ⟨hbuf, -, -⟩ := buf_netPacket hq
  unfold frame
  dsimp only
  rw [hbuf, decode_headBytes]
  exact ⟨rfl, rfl⟩

/-- **The bytes that are sent are those of the frame.** -/
theorem bytes_frame (hq : netPacket mem h l = some q) : (frame q).bytes = sent q := by
  obtain ⟨hbuf, -, hoff⟩ := buf_netPacket hq
  have hsec : field (slice q.buf 0 HEADER_LENGTH) 4 1 ≤ 1 := by
    have := (head_frame hq).1
    have hz : field (slice q.buf 0 HEADER_LENGTH) 4 1 = 0 := by
      by_contra hne
      exact absurd this (by simpa [frame, packetHeader.decode] using hne)
    omega
  unfold Frame.bytes sent
  rw [show (frame q).head.encode = slice q.buf 0 HEADER_LENGTH from
    packetHeader.encode_decode (length_slice _ _ _) hsec]
  unfold frame
  dsimp only
  rw [show q.off = HEADER_LENGTH + (q.off - HEADER_LENGTH) by omega, slice_add, Nat.zero_add,
    Nat.add_sub_cancel_left]

theorem security_header (hq : netPacket mem h l = some q) : (frame q).header.security = false := by
  unfold Frame.header packetHeader.toBigEndian
  split_ifs
  · exact (head_frame hq).1
  · exact (head_frame hq).1

/-- **A packet is a well-formed frame for the server that its header names**, on a session without
digests. -/
theorem wellFormed_frame {env : Env} (hid : env.local_id_ = h.remoteID)
    (htype : env.local_type_ = h.remoteType) (hq : netPacket mem h l = some q) :
    WellFormed env false (frame q) := by
  obtain ⟨hlen, -, hrtype, hrid, -, -, -⟩ := readHeader_netPacket hq
  have hsize := size_frame hq
  have hcontent := content_frame hq
  have hB : BODY_LENGTH = 10240 := rfl
  have hM : MAX_MSG_PACKET_SIZE = 65536 := rfl
  have hsz : (frame q).size = HEADER_LENGTH + (frame q).content.length := rfl
  refine ⟨hrid.trans hid.symm, hrtype.trans htype.symm, ?_, by omega, by omega, security_header hq, fun h => by cases h⟩
  rw [hcontent]
  exact hlen

theorem sane_frame (hq : netPacket mem h l = some q) (hid : 0 ≤ h.remoteID) (htype : h.remoteType < eMax)
    (hmess : h.messageType.toUInt32.toUInt8 ≤ SystemMessage) : Sane (frame q) := by
  obtain ⟨-, -, hrtype, hrid, -, htyp, -⟩ := readHeader_netPacket hq
  have hlocal : (frame q).header.localType = 0 := by
    unfold Frame.header packetHeader.toBigEndian
    split_ifs
    · exact (head_frame hq).2
    · exact (head_frame hq).2
  refine ⟨?_, ?_, ?_, ?_⟩
  · exact hrid.symm ▸ hid
  · exact hrtype.symm ▸ htype
  · rw [hlocal]
    decide
  · exact htyp.symm ▸ hmess

end

/-! ### The packets for the gate -/

/-- The packet with which `gate_service_conn` begins its connection: the type of a login server, and its
number. -/
def gateServiceConn : Header × List Push := ({ messageID := 0, messageType := 0 }, [.int8 6, .int16 1])

/-- A call of `gate_service_call`. -/
structure Call where
  charid : UInt64
  name : List UInt8

/-- The name is one that the assertions of the packet let pass. -/
def Call.Fits (c : Call) : Prop := c.name ≠ [] ∧ c.name.length ≤ 10202

instance (c : Call) : Decidable c.Fits := inferInstanceAs (Decidable (_ ∧ _))

theorem payload_gateServiceCall {c : Call} (h : c.Fits) :
    payload (gateServiceCall c.charid c.name).2 = callContent c.charid c.name := by
  have hlen : (UInt32.ofNat c.name.length).toNat = c.name.length :=
    UInt32.toNat_ofNat_of_lt' (h.2.trans_lt (by decide))
  have hswap : hton32 (UInt32.ofNat c.name.length) = beBytes 4 c.name.length := by
    unfold hton32 htonl beBytes
    rw [hlen, UInt32.toNat_ofNat_of_lt' (bswap_lt 4 _), leBytes_bswap]
  unfold payload gateServiceCall callContent
  rw [← hswap]
  simp only [List.flatMap_cons, List.flatMap_nil, Push.bytes, List.append_nil, ← List.append_assoc]
  rfl

theorem fits_gateServiceConn : Fits gateServiceConn.2 := by
  constructor
  · decide
  · decide

theorem fits_gateServiceCall {c : Call} (h : c.Fits) : Fits (gateServiceCall c.charid c.name).2 := by
  constructor
  · unfold gateServiceCall
    simp only [List.mem_cons, List.not_mem_nil, or_false, forall_eq_or_imp, forall_eq]
    exact ⟨List.ne_nil_of_length_pos (by simp [Push.bytes]), List.ne_nil_of_length_pos (by simp [Push.bytes]), h.1⟩
  · have hle := h.2
    have hB : BODY_LENGTH = 10240 := rfl
    have hH : HEADER_LENGTH = 26 := rfl
    rw [payload_gateServiceCall h, callContent, List.length_append, List.length_append, beBytes, beBytes,
      List.length_reverse, List.length_reverse, length_leBytes, length_leBytes]
    omega

end ChatShow.CSLoginService.GateFrames
