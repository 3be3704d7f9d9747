import EmbeddedRuntime.Lib.CrcPolynomial
import EmbeddedRuntime.Nver.PythonPacket
import EmbeddedRuntime.Protocol.Crc32
import EmbeddedRuntime.Transport.Frames

/-!
# One checksum

The loops of `embedded_protocol.c`, `datapath.cpp` and `transport.cpp` compute
the remainder of one polynomial division, in one pass or chunk by chunk.
-/

set_option autoImplicit false

namespace EmbeddedRuntime.Protocol.CrcAgreement

open EmbeddedRuntime.Lib.Crc
open EmbeddedRuntime.Lib.CrcPolynomial
open EmbeddedRuntime.Protocol.Crc32
open EmbeddedRuntime.Nver.Process (allOnes)

theorem mlrtCrc32_chunks (state : UInt32) (chunks : List (List UInt8)) :
    chunks.foldl mlrtCrc32Update state = mlrtCrc32Update state chunks.flatten :=
  List.foldl_flatten.symm

theorem datapath_crc32_chunks (value : UInt32) (chunks : List (List UInt8)) :
    chunks.foldl (fun value chunk => Nver.Process.crc32 chunk value) value =
      Nver.Process.crc32 chunks.flatten value :=
  List.foldl_flatten.symm

/-- The three implementations return the CRC-32 of IEEE 802.3, and the two that carry their value
reach the same one over any chunks as over the whole string. -/
theorem crc_implementations_agree :
    (∀ data : List UInt8,
      mlrtCrc32 data = ieeeRemainder data ∧
        Nver.Process.crc32 data allOnes ^^^ allOnes = ieeeRemainder data ∧
        Transport.Frames.crc32 data = ieeeRemainder data) ∧
      ∀ chunks : List (List UInt8),
        chunks.foldl mlrtCrc32Update mlrtCrc32Begin =
            mlrtCrc32Update mlrtCrc32Begin chunks.flatten ∧
          chunks.foldl (fun value chunk => Nver.Process.crc32 chunk value) allOnes =
            Nver.Process.crc32 chunks.flatten allOnes := by
  refine ⟨fun data => ?_, fun chunks => ?_⟩
  · rw [← ieee_eq_ieeeRemainder]
    exact ⟨mlrtCrc32_eq_ieee data, Nver.PythonPacket.crc32_eq_ieee data,
      Transport.Frames.crc32_eq_ieee data⟩
  · exact ⟨mlrtCrc32_chunks mlrtCrc32Begin chunks, datapath_crc32_chunks allOnes chunks⟩

end EmbeddedRuntime.Protocol.CrcAgreement
