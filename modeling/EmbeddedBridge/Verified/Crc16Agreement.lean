import EmbeddedBridge.Framing.Crc16Table
import EmbeddedBridge.Framing.Hdlc

/-! # The residue test and the table

The framer's test over a whole buffer accepts exactly the buffers that end in their
own check bytes, in both languages.  The device's table and its shifts are the same
function of the register, so what is folded over a buffer does not depend on the
build.
-/

namespace EmbeddedBridge

/-- The last two bytes against those of the rest. -/
theorem endsInCheck_iff (body : List UInt8) (check : List UInt8 → List UInt8)
    (two : ∀ payload, (check payload).length = 2) :
    (∃ payload, body = payload ++ check payload) ↔
      body.drop (body.length - 2) = check (body.take (body.length - 2)) := by
  constructor
  · rintro ⟨payload, rfl⟩
    have rest : (payload ++ check payload).length - 2 = payload.length := by
      rw [List.length_append, two, Nat.add_sub_cancel]
    rw [rest, List.drop_left, List.take_left]
  · intro trailer
    exact ⟨body.take (body.length - 2), by rw [← trailer, List.take_append_drop]⟩

/-- No trailer passes but the low and the high byte of the rest's CRC. -/
theorem residue_test_exact (language : Language) (body : List UInt8) (long : 2 ≤ body.length) :
    language.crcCheck body = true ↔
      body.drop (body.length - 2) = language.crcBytes (body.take (body.length - 2)) := by
  rw [crcCheck_iff language body long]
  exact endsInCheck_iff body language.crcBytes (crcBytes_two language)

theorem residue_test_exact_check :
    Language.python.crcCheck [0x31, 0x72, 0xD0] = true :=
  (residue_test_exact .python [0x31, 0x72, 0xD0] (by decide)).mpr (by decide)

/-! ## The table -/

theorem foldl_crc16HdlcUpdate_table (crc : UInt16) (data : List UInt8) :
    data.foldl Cpp.UseTable.crc16HdlcUpdate crc = data.foldl Cpp.crc16HdlcUpdate crc := by
  have same : Cpp.UseTable.crc16HdlcUpdate = Cpp.crc16HdlcUpdate :=
    funext fun crc => funext fun b => crc16HdlcUpdate_table crc b
  rw [same]

/-- The table, the shifts of the device and the shifts of the host. -/
theorem table_agrees (crc : UInt16) (data : List UInt8) :
    data.foldl Cpp.UseTable.crc16HdlcUpdate crc = data.foldl Cpp.crc16HdlcUpdate crc ∧
      data.foldl (fun crc b => Python.crc16HdlcUpdate crc b.toNat) crc.toNat =
        (data.foldl Cpp.UseTable.crc16HdlcUpdate crc).toNat := by
  rw [foldl_crc16HdlcUpdate_table]
  exact ⟨rfl, foldl_python_crc16HdlcUpdate crc data⟩

/-- A device built with the table sends the check bytes any peer expects. -/
theorem crc16Hdlc_table (data : List UInt8) :
    Cpp.UseTable.crc16Hdlc data = Cpp.crc16Hdlc data := by
  rw [Cpp.UseTable.crc16Hdlc, Cpp.UseTable.crc16HdlcRun, foldl_crc16HdlcUpdate_table]
  rfl

end EmbeddedBridge
