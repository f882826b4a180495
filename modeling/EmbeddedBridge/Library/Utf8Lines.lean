import Mathlib.Algebra.Group.Nat.Defs
import EmbeddedBridge.Library.Lines
import EmbeddedBridge.Library.Utf8

/-! # Lines of decoded text

The decoder makes an ASCII character of the ASCII byte and of nothing else, since
overlong forms are no sequences.  So a stream can be cut at an ASCII byte before it
is decoded, or at the character afterwards (`run_decoded`).
-/

namespace EmbeddedBridge.Library.Utf8

open Transducer (Step run)

/-- Any end of the sequence is past ASCII. -/
def State.Wide : State → Prop
  | .start => True
  | .inside code owed window => 0x80 ≤ (code * 64 + (window.low - 0x80)) * 64 ^ owed

theorem first_wide (byte : UInt8) : (first byte).1.Wide := by
  unfold first
  split
  · trivial
  split
  · trivial
  split
  · simp only [State.Wide, Window.low]
    omega
  split
  · simp [State.Wide, Window.low]
  split
  · simp [State.Wide, Window.low]
  split
  · simp only [State.Wide, Window.low]
    omega
  split
  · simp [State.Wide, Window.low]
  split
  · simp only [State.Wide, Window.low]
    omega
  split
  · simp [State.Wide, Window.low]
  · trivial

/-- The code so far with one more byte. -/
theorem wide_code {code owed : Nat} {window : Window} {byte : UInt8}
    (wide : (State.inside code owed window).Wide) (admitted : window.Admits byte) :
    0x80 ≤ (code * 64 + (byte.toNat - 0x80)) * 64 ^ owed := by
  have low := admitted.1
  exact Nat.le_trans wide (Nat.mul_le_mul_right _ (by omega))

theorem step_wide (state : State) (byte : UInt8) (wide : state.Wide) :
    (step state byte).1.Wide := by
  cases state with
  | start => exact first_wide byte
  | inside code owed window =>
    by_cases admitted : window.Admits byte
    · cases owed with
      | zero => rw [step_last admitted]; trivial
      | succ owed =>
        rw [step_more admitted]
        have more := wide_code wide admitted
        rw [Nat.pow_succ] at more
        simp only [State.Wide, Window.low]
        calc 0x80 ≤ (code * 64 + (byte.toNat - 0x80)) * (64 ^ owed * 64) := more
          _ = ((code * 64 + (byte.toNat - 0x80)) * 64 + (0x80 - 0x80)) * 64 ^ owed := by
            rw [Nat.sub_self, Nat.add_zero, Nat.mul_comm (64 ^ owed), Nat.mul_assoc]
    · rw [step_refused admitted]
      exact first_wide byte

theorem ascii_of_mem_first {byte : UInt8} {char : Char} (member : char ∈ (first byte).2)
    (small : char.toNat < 0x80) : char.toNat = byte.toNat := by
  cases first_cases byte with
  | inl whole =>
    rw [whole, List.mem_singleton] at member
    rw [member, byteChar] at small ⊢
    by_cases ascii : byte.toNat < 0x80
    · rw [if_pos ascii, toNat_ofNat, if_pos (.inl (by omega))]
    · rw [if_neg ascii] at small
      exact absurd small (by decide)
  | inr begins =>
    obtain ⟨code, owed, window, begun, _⟩ := begins
    rw [begun] at member
    cases member

theorem ascii_of_mem_step {state : State} {byte : UInt8} {char : Char} (wide : state.Wide)
    (member : char ∈ (step state byte).2) (small : char.toNat < 0x80) (notNull : char.toNat ≠ 0) :
    char.toNat = byte.toNat := by
  cases state with
  | start => exact ascii_of_mem_first member small
  | inside code owed window =>
    by_cases admitted : window.Admits byte
    · cases owed with
      | zero =>
        -- a code that is none would be read as null
        have large := wide_code wide admitted
        rw [step_last admitted, List.mem_singleton] at member
        rw [member, toNat_ofNat] at small notNull
        split at small
        · omega
        · rename_i invalid
          rw [if_neg invalid] at notNull
          exact absurd rfl notNull
      | succ owed =>
        rw [step_more admitted] at member
        cases member
    · rw [step_refused admitted, List.mem_cons] at member
      cases member with
      | inl replaced =>
        rw [replaced] at small
        exact absurd small (by decide)
      | inr rest => exact ascii_of_mem_first rest small

/-- Cut before or after decoding, the lines are the same. -/
theorem run_decoded (byte : UInt8) (ascii : byte.toNat < 0x80) (notNull : byte.toNat ≠ 0)
    (line stream : List UInt8) :
    run (Transducer.cascade step (Lines.step (Char.ofNat byte.toNat))) (run step .start line) stream =
      (run step .start (run (Lines.step byte) line stream).1,
        (run (Lines.step byte) line stream).2.map decode) := by
  have toNat : (Char.ofNat byte.toNat).toNat = byte.toNat := by
    rw [toNat_ofNat, if_pos (.inl (by omega))]
  apply Lines.run_translated step State.start flush State.Wide
  · trivial
  · exact step_wide
  · intro state input wide other member
    have same := ascii_of_mem_step wide member (by omega) (by omega)
    exact other (UInt8.toNat_inj.mp (same.symm.trans toNat))
  · intro state _
    refine ⟨step_ascii state ascii, fun member => ?_⟩
    cases state with
    | start => cases member
    | inside code owed window =>
      have replaced := List.mem_singleton.mp member
      rw [replaced] at toNat
      exact absurd (toNat ▸ ascii) (by decide)

end EmbeddedBridge.Library.Utf8
