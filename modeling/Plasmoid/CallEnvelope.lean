import Plasmoid.Registry

/-!
# The envelope of a call

A call of a gen server is a tagged message: the length of the caller's pid
string in four bytes, the pid string, and the encoded request.  The server takes
it apart again and resolves the pid string to find out whom to answer.

Components run with 32-bit addresses.
-/

namespace Plasmoid

/-- The bytes of a `u32`, least significant first. -/
def u32ToLe (n : Nat) : List UInt8 :=
  [.ofNat n, .ofNat (n / 256), .ofNat (n / 256 ^ 2), .ofNat (n / 256 ^ 3)]

/-- The number that four bytes stand for. -/
def u32OfLe : List UInt8 → Nat
  | [] => 0
  | b :: rest => b.toNat + 256 * u32OfLe rest

/-- The bytes of a string. -/
def utf8Bytes (s : String) : List UInt8 := s.toUTF8.data.toList

/-- What `call` sends. -/
def callEnvelope (pidStr : String) (request : List UInt8) : List UInt8 :=
  u32ToLe (utf8Bytes pidStr).length ++ utf8Bytes pidStr ++ request

/-- What the receive loop makes of the payload of a tagged message. -/
inductive OpenedEnvelope where
  | skip
  /-- The arithmetic or the slice panics, and the component traps. -/
  | trap
  | request (pidStr : String) (request : List UInt8)
deriving DecidableEq

/-- Take an envelope apart. -/
def openEnvelope (payload : List UInt8) : OpenedEnvelope :=
  if payload.length < 4 then .skip
  else
    let pidLen := u32OfLe (payload.take 4)
    -- `4 + pid_len` overflows, or wraps below the start of the slice.
    if 2 ^ 32 ≤ 4 + pidLen then .trap
    else if payload.length < 4 + pidLen then .skip
    else
      match String.fromUTF8? ⟨((payload.drop 4).take pidLen).toArray⟩ with
      | none => .skip
      | some pidStr => .request pidStr (payload.drop (4 + pidLen))

namespace ParticleRegistry

/-- Resolve a target string: names first, then the display forms of live
particles. -/
def resolveTarget (reg : ParticleRegistry) (target : String) : Option Pid :=
  match reg.getByName target with
  | some pid => some pid
  | none => reg.particleStates.keys.find? fun pid => pid.display = target

end ParticleRegistry

/-! ## Round trips -/

theorem u32OfLe_u32ToLe {n : Nat} (h : n < 2 ^ 32) : u32OfLe (u32ToLe n) = n := by
  simp only [u32ToLe, u32OfLe, UInt8.toNat_ofNat']
  omega

@[simp] theorem length_u32ToLe (n : Nat) : (u32ToLe n).length = 4 := rfl

theorem fromUTF8_utf8Bytes (s : String) :
    String.fromUTF8? ⟨(utf8Bytes s).toArray⟩ = some s := by
  have hbytes : (⟨(utf8Bytes s).toArray⟩ : ByteArray) = s.toByteArray := by
    simp [utf8Bytes]
  rw [hbytes, String.fromUTF8?, dif_pos s.isValidUTF8]
  rfl

/-- What a caller sends the server takes apart again. -/
theorem openEnvelope_callEnvelope {pidStr : String} (request : List UInt8)
    (h : (utf8Bytes pidStr).length + 4 < 2 ^ 32) :
    openEnvelope (callEnvelope pidStr request) = .request pidStr request := by
  have hlen : (callEnvelope pidStr request).length =
      4 + (utf8Bytes pidStr).length + request.length := by
    simp only [callEnvelope, List.length_append, length_u32ToLe]
  have hpid : u32OfLe ((callEnvelope pidStr request).take 4) =
      (utf8Bytes pidStr).length :=
    u32OfLe_u32ToLe (by omega)
  have hrest : (callEnvelope pidStr request).drop 4 =
      utf8Bytes pidStr ++ request := rfl
  have hrequest : (callEnvelope pidStr request).drop
      (4 + (utf8Bytes pidStr).length) = request := by
    rw [← List.drop_drop, hrest, List.drop_left]
  unfold openEnvelope
  simp only [hpid, hrest, hrequest, List.take_left, fromUTF8_utf8Bytes]
  rw [if_neg (by omega), if_neg (by omega), if_neg (by omega)]

/-! ## Display forms -/

theorem utf8ByteSize_ofList_le (l : List Char) :
    (String.ofList l).utf8ByteSize ≤ 4 * l.length := by
  induction l with
  | nil => simp
  | cons c l ih =>
    have hcons : String.ofList (c :: l) = String.singleton c ++ String.ofList l := by
      simp
    rw [hcons, String.utf8ByteSize_append, String.utf8ByteSize_singleton]
    have := c.utf8Size_le_four
    simp only [List.length_cons]
    omega

theorem length_utf8Bytes (s : String) :
    (utf8Bytes s).length = s.utf8ByteSize :=
  Array.length_toList

theorem utf8ByteSize_le (s : String) : s.utf8ByteSize ≤ 4 * s.length := by
  have h := utf8ByteSize_ofList_le s.toList
  rw [String.ofList_toList, String.length_toList] at h
  exact h

/-- A display form is short. -/
theorem length_display (pid : Pid) : (utf8Bytes pid.display).length ≤ 124 := by
  have hseq : (toString pid.seq).length ≤ 20 := by
    refine Nat.repr_length pid.seq.toNat 20 (by norm_num) ?_
    have := pid.seq.toNat_lt
    omega
  have hprefix : pid.nodePrefix.length = 8 := by
    simp [Pid.nodePrefix, hexEncode, List.range, List.range.loop]
  have hsplit : pid.display =
      "<" ++ pid.nodePrefix ++ "." ++ toString pid.seq ++ ">" := rfl
  have hbound := utf8ByteSize_le pid.display
  rw [length_utf8Bytes]
  rw [hsplit] at hbound ⊢
  simp only [String.length_append, hprefix] at hbound
  have hone : "<".length = 1 ∧ ".".length = 1 ∧ ">".length = 1 := by decide
  omega

theorem repr_injective {m n : Nat} (h : m.repr = n.repr) : m = n := by
  have hdigits : Nat.toDigits 10 m = Nat.toDigits 10 n := by
    rw [← Nat.toList_repr, ← Nat.toList_repr, h]
  have hvalue := congrArg (fun l => Nat.ofDigitChars 10 l 0) hdigits
  simpa [Nat.ofDigitChars_toDigits] using hvalue

/-- Particles of one node have different display forms. -/
theorem display_inj {p q : Pid} (hnode : p.node = q.node)
    (h : p.display = q.display) : p = q := by
  have hp : ∀ x : Pid, x.display =
      "<" ++ x.nodePrefix ++ "." ++ toString x.seq ++ ">" := fun _ => rfl
  have hprefix : p.nodePrefix = q.nodePrefix := by
    simp only [Pid.nodePrefix, hnode]
  rw [hp, hp, hprefix] at h
  simp only [String.append_assoc, String.append_right_inj,
    String.append_left_inj] at h
  have hseq : p.seq = q.seq := UInt64.toNat_inj.1 (repr_injective h)
  cases p
  cases q
  cases hnode
  cases hseq
  rfl

end Plasmoid
